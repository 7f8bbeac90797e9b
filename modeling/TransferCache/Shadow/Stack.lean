import TransferCache.Shadow.Slot

/-!
# The shadow stack

The shadow stack follows the nesting of guest calls so that a return can go straight to the host
code of its caller's continuation. Index 0 holds a base frame that no return matches; the usable
frames live at indices `1` to `capacity`, and the stack is empty when its top is the base.

Under `OverflowPolicy.wrap` the usable frames form a ring: a push on a full stack overwrites the
oldest frame, and a count of live frames stops pops before they reach what was overwritten or popped
earlier. Under `OverflowPolicy.reset` a push on a full stack starts again just past the base.

A stack whose storage has more places than a machine word counts cannot be built
(`ShadowStack.ofCapacity?`).

`ShadowStack.frames` is the view of a stack: its live frames, newest first.
-/

namespace TransferCache

/-! ## Counts in machine words -/

/-- The sum of two counts, if that is a word. -/
def plus? (count other : Nat) : Option Nat :=
  if count + other < UInt64.size then some (count + other) else none

theorem plus?_of_lt {count other : Nat} (fits : count + other < UInt64.size) :
    plus? count other = some (count + other) := if_pos fits

theorem plus?_eq_none_iff {count other : Nat} :
    plus? count other = none ↔ UInt64.size ≤ count + other := by
  unfold plus?
  split
  · next fits => exact iff_of_false nofun (Nat.not_le_of_lt fits)
  · next wraps => exact iff_of_true rfl (Nat.le_of_not_lt wraps)

/-! ## Stacks -/

/-- What a push does when the stack is full. Either way predictions are lost, never made wrong. -/
inductive OverflowPolicy where
  /-- Drop every frame and start again just past the base. -/
  | reset
  /-- Treat the frames as a ring and overwrite the oldest one. -/
  | wrap
  deriving DecidableEq, Repr

def OverflowPolicy.name : OverflowPolicy → String
  | .reset => "Reset"
  | .wrap => "Wrap"

/-- What a call leaves behind for its return: the address expected to come back to, and the slot
with the host code for it. -/
structure Frame where
  expected : GuestAddr
  slot : SlotRef
  deriving DecidableEq, Repr

/-- The frame at index 0. -/
def Frame.base : Frame := ⟨.last, .none⟩

/-- The index of the base frame, which is the top of an empty stack. -/
def ShadowStack.baseIndex : Nat := 0

/-- A bounded stack of frames. `ringLive` counts the live frames of a ring. -/
structure ShadowStack where
  entries : Array Frame
  top : Nat
  ringLive : Nat
  policy : OverflowPolicy
  deriving DecidableEq, Repr

namespace ShadowStack

/-- An empty stack with room for `capacity` frames above the base. -/
def ofCapacity (capacity : Nat) (policy : OverflowPolicy) : ShadowStack :=
  ⟨Array.replicate (capacity + 1) .base, 0, 0, policy⟩

/-- The storage has a place for the base besides those for the frames. Unless the number of its
places is a word, there is no such stack. -/
def ofCapacity? (capacity : Nat) (policy : OverflowPolicy) : Option ShadowStack :=
  (plus? capacity 1).map fun limit => ⟨Array.replicate limit .base, 0, 0, policy⟩

/-- The number of usable frames. -/
def capacity (stack : ShadowStack) : Nat := stack.entries.size - 1

/-- One past the last usable index. -/
def limit (stack : ShadowStack) : Nat := stack.entries.size

def isEmpty (stack : ShadowStack) : Bool := stack.top = 0

def frameAt? (stack : ShadowStack) (index : Nat) : Option Frame := stack.entries[index]?

/-- The frame at the top, which is the base frame on an empty stack. -/
def peek (stack : ShadowStack) : Frame := (stack.frameAt? stack.top).getD .base

/-- How many frames a run of pops can still return. -/
def live (stack : ShadowStack) : Nat :=
  match stack.policy with
  | .reset => stack.top
  | .wrap => stack.ringLive

/-- The index that the next push lands on, and whether that push discards a live frame. -/
def advance (stack : ShadowStack) : Nat × Bool :=
  let wrapped := stack.limit ≤ stack.top + 1
  let overflowed :=
    match stack.policy with
    | .reset => wrapped
    | .wrap => stack.ringLive = stack.capacity
  (if wrapped then 1 else stack.top + 1, overflowed)

/-- The index that the top retreats to when its frame is popped: in a ring the first index retreats
to the last one, but only while an older live frame remains. It is asked for on a stack that is not
empty; below the base there is no index. -/
def retreat (stack : ShadowStack) : Nat :=
  match stack.policy with
  | .reset => stack.top - 1
  | .wrap =>
    if stack.ringLive ≤ 1 then 0
    else if stack.top = 1 then stack.capacity
    else stack.top - 1

/-- Pushes a frame and tells whether a live frame was discarded. -/
def push (stack : ShadowStack) (frame : Frame) : ShadowStack × Bool :=
  let (next, overflowed) := stack.advance
  ({ stack with
      entries := stack.entries.setIfInBounds next frame
      top := next
      ringLive :=
        if stack.policy = .wrap ∧ ¬overflowed then stack.ringLive + 1 else stack.ringLive },
    overflowed)

/-- Drops the top frame; an empty stack stays as it is. -/
def pop (stack : ShadowStack) : ShadowStack :=
  if stack.isEmpty then stack
  else
    { stack with
      top := stack.retreat
      ringLive := if stack.policy = .wrap then stack.ringLive - 1 else stack.ringLive }

/-- Empties the stack in constant time. The frames stay in storage, out of reach of any pop. -/
def flush (stack : ShadowStack) : ShadowStack := { stack with top := 0, ringLive := 0 }

/-! ## Stores by compiled code -/

/-- Replaces the frame at an index of the stack. -/
def setEntry (stack : ShadowStack) (index : Nat) (frame : Frame) : ShadowStack :=
  { stack with entries := stack.entries.setIfInBounds index frame }

/-- Moves the top, refused outside the stack. -/
def setTop? (stack : ShadowStack) (index : Nat) : Option ShadowStack :=
  if index < stack.limit then some { stack with top := index } else none

/-- Replaces the live count of the ring, refused above the capacity. -/
def setLive? (stack : ShadowStack) (count : Nat) : Option ShadowStack :=
  if count ≤ stack.capacity then some { stack with ringLive := count } else none

/-! ## The frames of a stack -/

/-- The index of the live frame that was pushed `age` frames before the top one. -/
def indexOfAge (stack : ShadowStack) (age : Nat) : Nat :=
  if age < stack.top then stack.top - age else stack.top + stack.capacity - age

/-- The live frames, newest first. -/
def frames (stack : ShadowStack) : List Frame :=
  (List.range stack.live).map fun age => (stack.frameAt? (stack.indexOfAge age)).getD .base

theorem ofCapacity?_of_lt {capacity : Nat} (stored : capacity + 1 < UInt64.size)
    (policy : OverflowPolicy) :
    ofCapacity? capacity policy = some (ofCapacity capacity policy) := by
  unfold ofCapacity?
  rw [plus?_of_lt stored]
  rfl

theorem ofCapacity?_eq_none_iff {capacity : Nat} {policy : OverflowPolicy} :
    ofCapacity? capacity policy = none ↔ UInt64.size ≤ capacity + 1 := by
  unfold ofCapacity?
  rw [Option.map_eq_none_iff, plus?_eq_none_iff]

theorem ofCapacity?_eq_some_iff {capacity : Nat} {policy : OverflowPolicy} {stack : ShadowStack} :
    ofCapacity? capacity policy = some stack ↔
      capacity + 1 < UInt64.size ∧ ofCapacity capacity policy = stack := by
  by_cases stored : capacity + 1 < UInt64.size
  · rw [ofCapacity?_of_lt stored, Option.some_inj, and_iff_right stored]
  · rw [ofCapacity?_eq_none_iff.2 (Nat.le_of_not_lt stored)]
    exact iff_of_false nofun fun both => stored both.1

@[simp] theorem capacity_ofCapacity (capacity : Nat) (policy : OverflowPolicy) :
    (ofCapacity capacity policy).capacity = capacity := by
  simp [ShadowStack.capacity, ofCapacity]

@[simp] theorem frames_ofCapacity (capacity : Nat) (policy : OverflowPolicy) :
    (ofCapacity capacity policy).frames = [] := by
  cases policy <;> rfl

@[simp] theorem capacity_push (stack : ShadowStack) (frame : Frame) :
    (stack.push frame).1.capacity = stack.capacity := by
  simp [push, ShadowStack.capacity]

@[simp] theorem capacity_pop (stack : ShadowStack) : stack.pop.capacity = stack.capacity := by
  unfold pop
  split <;> rfl

@[simp] theorem frames_flush (stack : ShadowStack) : stack.flush.frames = [] := by
  obtain ⟨entries, top, ringLive, policy⟩ := stack
  cases policy <;> rfl

end ShadowStack

end TransferCache
