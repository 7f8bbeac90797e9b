import TransferCache.Code.Text

/-!
# Faults of operation lists

What can be wrong with an operation list, and the bound on how many operations one run executes.
-/

namespace TransferCache.Code

/-- Why an operation list cannot go on. -/
inductive Fault where
  /-- A register was read before anything was written to it. -/
  | unsetTemp (temp : Temp)
  | frameOutside (index : UInt64)
  | topOutside (index : UInt64)
  | liveOutside (count : UInt64)
  | limitStored
  | targetMissing
  | labelUndefined (label : Label)
  | labelRedefined (label : Label)
  /-- The bound on executed operations was reached. -/
  | noExit
  deriving DecidableEq, Repr

/-- The number of operations that one run may execute. -/
def stepBound : Nat := 65536

def Fault.message (fault : Fault) : String :=
  "malformed operation list: " ++
    match fault with
    | .unsetTemp temp => temp.text ++ " read before written"
    | .frameOutside index => "stack index " ++ hexText index.toNat ++ " out of range"
    | .topOutside index => "shadow top " ++ hexText index.toNat ++ " out of range"
    | .liveOutside count => "shadow live count " ++ hexText count.toNat ++ " out of range"
    | .limitStored => "store to read-only " ++ StackField.limit.text
    | .targetMissing => Helper.lookupTarget.text ++ " called without a target"
    | .labelUndefined label => label.text ++ " is never defined"
    | .labelRedefined label => label.text ++ " defined twice"
    | .noExit => s!"no exit after {stepBound} operations"

end TransferCache.Code
