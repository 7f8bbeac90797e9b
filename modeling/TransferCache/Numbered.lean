/-!
# Values under small numbers

A table that grows with the largest number anything was kept under. `find?` is its view.
-/

namespace TransferCache

/-- Values kept under small numbers; a number that was never set has none. -/
structure Numbered (α : Type) where
  cells : Array (Option α)
  deriving DecidableEq, Repr

namespace Numbered

variable {α : Type}

def empty : Numbered α := ⟨#[]⟩

def find? (table : Numbered α) (number : Nat) : Option α := table.cells[number]?.join

/-- Keeps a value under a number, in place of any earlier one. -/
def set (table : Numbered α) (number : Nat) (value : α) : Numbered α :=
  if number < table.cells.size then ⟨table.cells.setIfInBounds number (some value)⟩
  else ⟨(table.cells ++ Array.replicate (number - table.cells.size) none).push (some value)⟩

@[simp] theorem find?_empty (number : Nat) : (empty : Numbered α).find? number = none := rfl

/-- A value is found under the number it was set for, and every other number keeps what it had. -/
theorem find?_set (table : Numbered α) (number other : Nat) (value : α) :
    (table.set number value).find? other =
      if number = other then some value else table.find? other := by
  unfold set find?
  by_cases inside : number < table.cells.size
  · rw [if_pos inside]
    by_cases same : number = other
    · subst same
      simp [inside]
    · simp [same]
  · rw [if_neg inside]
    have size :
        (table.cells ++ Array.replicate (number - table.cells.size) none).size = number := by
      rw [Array.size_append, Array.size_replicate]
      omega
    rcases Nat.lt_trichotomy other number with below | same | above
    · have apart : number ≠ other := by omega
      rw [if_neg apart, Array.getElem?_push, if_neg (by omega)]
      by_cases kept : other < table.cells.size
      · rw [Array.getElem?_append_left kept]
      · rw [Array.getElem?_append_right (by omega)]
        have beyond : table.cells[other]? = none := Array.getElem?_eq_none (by omega)
        rw [beyond, Array.getElem?_replicate]
        split <;> rfl
    · subst same
      rw [if_pos rfl, Array.getElem?_push, if_pos (by omega)]
      rfl
    · have apart : number ≠ other := by omega
      have beyond : table.cells[other]? = none := Array.getElem?_eq_none (by omega)
      rw [if_neg apart, Array.getElem?_push, if_neg (by omega), beyond,
        Array.getElem?_eq_none (by omega)]

end Numbered

end TransferCache
