import TransferCache.Address

/-!
# Shadow slots

Every compiled call site owns one slot: a cell for the host code that its return point jumps to. A
cell is unresolved until that code exists. Slots are handed out in order and none is handed out
twice until the whole array is cleared.
-/

namespace TransferCache

/-- The number of a slot, as compiled code stores it. -/
structure SlotRef where
  index : UInt64
  deriving DecidableEq, Repr

/-- The reference carried by the base of the shadow stack; no array is large enough to hold it. -/
def SlotRef.none : SlotRef := ⟨0xffffffffffffffff⟩

/-- Every slot of an array of this capacity has been handed out. -/
structure SlotsExhausted where
  capacity : Nat
  deriving DecidableEq, Repr

def SlotsExhausted.message (fault : SlotsExhausted) : String :=
  s!"shadow slot array exhausted ({fault.capacity} slots); " ++
    "reset the context or raise shadow.slot_capacity"

/-- Slot cells, of which the first `allocated` belong to call sites. -/
structure SlotArray where
  cells : Array HostAddr
  allocated : Nat
  deriving DecidableEq, Repr

namespace SlotArray

def ofCapacity (capacity : Nat) : SlotArray :=
  ⟨Array.replicate capacity .unresolved, 0⟩

def capacity (slots : SlotArray) : Nat := slots.cells.size

/-- Hands out the next unused slot. A refusal changes nothing. -/
def alloc (slots : SlotArray) : Except SlotsExhausted (SlotRef × SlotArray) :=
  if slots.allocated < slots.capacity then
    .ok (⟨slots.allocated.toUInt64⟩, { slots with allocated := slots.allocated + 1 })
  else
    .error ⟨slots.capacity⟩

/-- Whether the reference names a cell of this array. -/
def holds (slots : SlotArray) (slot : SlotRef) : Bool :=
  slot.index.toNat < slots.capacity

/-- The host code in a slot. A reference outside the array reads as unresolved. -/
def value (slots : SlotArray) (slot : SlotRef) : HostAddr :=
  slots.cells[slot.index.toNat]?.getD .unresolved

/-- Writes host code into a slot. A reference outside the array writes nothing. -/
def resolve (slots : SlotArray) (slot : SlotRef) (host : HostAddr) : SlotArray :=
  { slots with cells := slots.cells.setIfInBounds slot.index.toNat host }

/-- Writes the same host code into several slots. -/
def resolveAll (slots : SlotArray) (refs : List SlotRef) (host : HostAddr) : SlotArray :=
  refs.foldl (fun slots slot => slots.resolve slot host) slots

/-- Unresolves every slot and hands them out from the first again. -/
def clear (slots : SlotArray) : SlotArray := ofCapacity slots.capacity

/-! ## What the operations do to cells -/

@[simp] theorem capacity_ofCapacity (capacity : Nat) : (ofCapacity capacity).capacity = capacity :=
  Array.size_replicate

@[simp] theorem capacity_resolve (slots : SlotArray) (slot : SlotRef) (host : HostAddr) :
    (slots.resolve slot host).capacity = slots.capacity :=
  Array.size_setIfInBounds

@[simp] theorem allocated_resolve (slots : SlotArray) (slot : SlotRef) (host : HostAddr) :
    (slots.resolve slot host).allocated = slots.allocated := rfl

@[simp] theorem capacity_clear (slots : SlotArray) : slots.clear.capacity = slots.capacity :=
  capacity_ofCapacity slots.capacity

@[simp] theorem holds_resolve (slots : SlotArray) (slot other : SlotRef) (host : HostAddr) :
    (slots.resolve slot host).holds other = slots.holds other := by
  unfold holds
  rw [capacity_resolve]

/-- A written slot holds what was written if it is a cell of the array, and other slots keep their
value. -/
theorem value_resolve (slots : SlotArray) (slot other : SlotRef) (host : HostAddr) :
    (slots.resolve slot host).value other =
      if slot = other ∧ slots.holds slot then host else slots.value other := by
  by_cases same : slot = other
  · subst same
    by_cases inside : slot.index.toNat < slots.cells.size
    · simp [value, resolve, holds, capacity, inside]
    · simp [value, resolve, holds, capacity, inside]
  · have apart : slot.index.toNat ≠ other.index.toNat := fun equal =>
      same (by cases slot; cases other; simpa using UInt64.toNat_inj.1 equal)
    simp [value, resolve, same, Array.getElem?_setIfInBounds_ne apart]

@[simp] theorem capacity_resolveAll (slots : SlotArray) (refs : List SlotRef) (host : HostAddr) :
    (slots.resolveAll refs host).capacity = slots.capacity := by
  induction refs generalizing slots with
  | nil => rfl
  | cons slot refs ih => exact (ih (slots.resolve slot host)).trans (slots.capacity_resolve _ _)

@[simp] theorem allocated_resolveAll (slots : SlotArray) (refs : List SlotRef) (host : HostAddr) :
    (slots.resolveAll refs host).allocated = slots.allocated := by
  induction refs generalizing slots with
  | nil => rfl
  | cons slot refs ih => exact ih (slots.resolve slot host)

/-- Every written slot holds what was written if it is a cell of the array, and other slots keep
their value. -/
theorem value_resolveAll (slots : SlotArray) (refs : List SlotRef) (other : SlotRef)
    (host : HostAddr) :
    (slots.resolveAll refs host).value other =
      if other ∈ refs ∧ slots.holds other then host else slots.value other := by
  induction refs generalizing slots with
  | nil => simp [resolveAll]
  | cons slot refs ih =>
    have rest := ih (slots.resolve slot host)
    rw [holds_resolve, value_resolve] at rest
    refine (show _ = _ from rest).trans ?_
    by_cases same : slot = other
    · subst same
      by_cases inside : slots.holds slot = true <;> simp [inside]
    · simp [same, Ne.symm same]

@[simp] theorem allocated_clear (slots : SlotArray) : slots.clear.allocated = 0 := rfl

@[simp] theorem value_ofCapacity (capacity : Nat) (slot : SlotRef) :
    (ofCapacity capacity).value slot = .unresolved := by
  unfold value ofCapacity
  rw [Array.getElem?_replicate]
  split <;> rfl

@[simp] theorem value_clear (slots : SlotArray) (slot : SlotRef) :
    slots.clear.value slot = .unresolved :=
  value_ofCapacity slots.capacity slot

end SlotArray

end TransferCache
