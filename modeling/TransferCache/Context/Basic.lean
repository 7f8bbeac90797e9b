import TransferCache.Outcome
import TransferCache.Shadow.Waiting
import TransferCache.TargetCache
import TransferCache.Stats.Basic

/-!
# Execution contexts

A context holds all cache state of one emulated processor: the shadow stack, the slots of its call
sites, the links that wait for a block, the cache of jump targets, and the counters. `updatePending`
is raised by a lookup that misses and lowered by the update that answers it.
-/

namespace TransferCache

structure Context where
  shadow : ShadowStack
  slots : SlotArray
  links : WaitingLinks
  targets : TargetCache
  updatePending : Bool
  /-- What a lookup that misses yields: the code that returns to the dispatcher. -/
  stub : HostAddr
  traceTransfers : Bool
  stats : Stats
  deriving DecidableEq, Repr

/-- A compiled call site: the return address it pushes, the slot it owns, and whether the slot was
filled when the site was compiled. -/
structure CallSite where
  ret : GuestAddr
  slot : SlotRef
  linked : Bool
  deriving DecidableEq, Repr

/-- The outcome of popping the shadow stack for a return. -/
inductive Prediction where
  /-- The frame matched and its host code is known. -/
  | hit (host : HostAddr)
  /-- The actual address was not the expected one; the stack is as before. -/
  | mismatch
  /-- The frame matched and is gone, but its code does not exist yet. -/
  | unresolved
  deriving DecidableEq, Repr

/-- Where a prediction leads; nowhere if the slow path has to run. -/
def Prediction.target? : Prediction → Option HostAddr
  | .hit host => some host
  | .mismatch | .unresolved => none

/-- Why a context was not built. -/
inductive CreationFault where
  /-- A field of the configuration is out of range. -/
  | invalid (fault : InvalidConfig)
  /-- The storage of the stack has more places than a word counts. -/
  | noStorage
  deriving DecidableEq, Repr

namespace Context

/-- What a lookup that misses yields until a stub is installed. -/
def defaultStub : HostAddr := ⟨0xffffffffffffffff⟩

/-- An empty context of the given sizes. -/
def ofConfig (config : Config) : Context where
  shadow := .ofCapacity config.stackSize.toNat config.overflow
  slots := .ofCapacity config.slotCapacity.toNat
  links := .ofBits config.linkTableBits.toNat
  targets := .ofBits config.indexBits.toNat
  updatePending := false
  stub := defaultStub
  traceTransfers := config.traceTransfers
  stats := {}

/-- Builds a context, if the configuration is accepted and there can be a stack of its size. -/
def create (config : Config) : Except CreationFault (Outcome Context Unit) :=
  match config.validate with
  | .error fault => .error (.invalid fault)
  | .ok () =>
    match ShadowStack.ofCapacity? config.stackSize.toNat config.overflow with
    | none => .error .noStorage
    | some shadow => .ok ⟨(), { ofConfig config with shadow }, [.contextCreated config]⟩

def withStub (ctx : Context) (stub : HostAddr) : Context := { ctx with stub }

/-- An event that is logged only if transfers are traced. -/
def traced (ctx : Context) (event : Event) : List Event :=
  if ctx.traceTransfers then [event] else []

end Context

end TransferCache
