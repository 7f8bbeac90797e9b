import TransferCache.Code.Fault
import TransferCache.Numbered

/-!
# The places of labels

Labels are resolved before a list runs, over the whole list from its first operation to its last. A
label may be placed only once; a branch to a label that is placed nowhere is a fault only when it is
taken.
-/

namespace TransferCache.Code

/-- For each label, the position just after its place. -/
abbrev Labels := Numbered Nat

/-- Adds the labels of operations that stand from `position` on. -/
def Labels.collect : List Op → Nat → Labels → Except Fault Labels
  | [], _, labels => .ok labels
  | .label place :: ops, position, labels =>
    if (labels.find? place.number.toNat).isSome then .error (.labelRedefined place)
    else collect ops (position + 1) (labels.set place.number.toNat (position + 1))
  | _ :: ops, position, labels => collect ops (position + 1) labels

/-- The labels of an operation list, each of which may be placed only once. -/
def Labels.ofOps (ops : Array Op) : Except Fault Labels := collect ops.toList 0 .empty

/-- Where a branch to `label` goes on. -/
def Labels.position (labels : Labels) (label : Label) : Except Fault Nat :=
  match labels.find? label.number.toNat with
  | some position => .ok position
  | none => .error (.labelUndefined label)

end TransferCache.Code
