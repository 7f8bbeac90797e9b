import TransferCache.Address
import TransferCache.AddressMap
import TransferCache.Hexadecimal
import TransferCache.Registry
import TransferCache.Shadow.Slot
import TransferCache.Shadow.Stack
import TransferCache.Shadow.Waiting
import TransferCache.TargetCache
import TransferCache.Config.Basic
import TransferCache.Config.OfText
import TransferCache.Context.Basic
import TransferCache.Context.Protocol
import TransferCache.Decimal
import TransferCache.Stats.Report
import TransferCache.Code.Builder
import TransferCache.Code.Emit
import TransferCache.Code.Labels
import TransferCache.Code.Machine
import TransferCache.Engine.Action
import TransferCache.Engine.Uncached
import TransferCache.Proofs.Context.Linking
import TransferCache.Proofs.Shadow.Frames
import TransferCache.Proofs.Context.Steps
import TransferCache.Proofs.Engine.Steps
import TransferCache.Proofs.Engine.Sound
import TransferCache.Proofs.Engine.Transparency
import TransferCache.Proofs.Engine.LinkCompleteness
import TransferCache.Proofs.Code.Forward
import TransferCache.Proofs.Code.Execution
import TransferCache.Proofs.Context.Uncounted
import TransferCache.Proofs.Code.Pushing
import TransferCache.Proofs.Code.Popping
import TransferCache.Proofs.Code.Direct
import TransferCache.Proofs.Code.Drafts
import TransferCache.Proofs.Code.Lockstep
import TransferCache.Proofs.Engine.History
import TransferCache.Proofs.Shadow.BoundedList
import TransferCache.Proofs.Engine.Lookups
import TransferCache.Proofs.Engine.JumpPrediction
import TransferCache.Proofs.Engine.Provenance
import TransferCache.Proofs.Context.Unstacked
import TransferCache.Proofs.Engine.Dominance
import TransferCache.Proofs.Context.Dimensions
import TransferCache.Proofs.Context.Aged
import TransferCache.Proofs.Engine.Protocols
import TransferCache.Proofs.Engine.Renewal
import TransferCache.Proofs.Engine.Nesting
import TransferCache.Proofs.Context.Untargeted
import TransferCache.Proofs.Engine.Enlargement
import TransferCache.Proofs.Shadow.Exact
import TransferCache.Proofs.Shadow.Bounds
import TransferCache.Proofs.Context.Confined
import TransferCache.Proofs.Code.Confinement
import TransferCache.Proofs.Shadow.WaitingList
import TransferCache.Proofs.Engine.Failures
import TransferCache.Proofs.TargetCache.LastUpdate
import TransferCache.Proofs.Code.Throughout
import TransferCache.Proofs.Code.Uncounted
import TransferCache.Proofs.Code.Exactness
import TransferCache.Proofs.Shadow.Spreading
import TransferCache.Proofs.Engine.CallSites
import TransferCache.Proofs.Engine.Replacement
import TransferCache.Proofs.Context.Forgotten
import TransferCache.Proofs.Engine.Conservation
import TransferCache.Proofs.Document.Grammar
import TransferCache.Proofs.Document.Tokens
import TransferCache.Proofs.Document.Numbers
import TransferCache.Proofs.Document.Skipping
import TransferCache.Proofs.Document.Records
import TransferCache.Proofs.Config.Written
import TransferCache.Proofs.Config.ReadBack
import TransferCache.Proofs.Code.Listing
import TransferCache.Proofs.Code.Registers
import TransferCache.Proofs.Code.Visits
import TransferCache.Proofs.Code.Sequencing
import TransferCache.Proofs.Code.AcceptedSizes
import TransferCache.Proofs.Code.Paths
import TransferCache.Proofs.Code.Emission
import TransferCache.Proofs.Context.Accounts
import TransferCache.Proofs.Context.Retraced
import TransferCache.Proofs.Code.Reporting
import TransferCache.Proofs.Engine.Reports
