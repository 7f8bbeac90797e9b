import TransferCache.Proofs.Shadow.Frames

/-!
# Stack arithmetic in machine words

The sizes and indices of a stack are machine words where a program runs: a sum that is too large
wraps around, and so does a difference below zero. Each operation of a stack is given here once more
so that it fails where one of its sums or differences would wrap around, or where it would touch
storage outside of the stack. Differences that stop at zero by design do not fail.

* `WellFormed.exact`: on a well-formed stack whose storage is counted by words, none of them fails,
  and each gives what the plain operation gives.
-/

namespace TransferCache

/-- The difference of two counts, unless that is below zero. -/
def minus? (count other : Nat) : Option Nat :=
  if other ≤ count then some (count - other) else none

theorem minus?_of_le {count other : Nat} (covers : other ≤ count) :
    minus? count other = some (count - other) := if_pos covers

namespace ShadowStack

/-! ## Operations that fail instead of wrapping around -/

def capacity? (stack : ShadowStack) : Option Nat := minus? stack.limit 1

def advance? (stack : ShadowStack) : Option (Nat × Bool) := do
  let next ← plus? stack.top 1
  let overflowed ←
    match stack.policy with
    | .reset => some (decide (stack.limit ≤ next))
    | .wrap => stack.capacity?.map fun capacity => decide (stack.ringLive = capacity)
  return (if stack.limit ≤ next then 1 else next, overflowed)

/-- Under the reset policy the base is below nothing, and the difference stops there. -/
def retreat? (stack : ShadowStack) : Option Nat :=
  match stack.policy with
  | .reset => some (stack.top - 1)
  | .wrap =>
    if stack.ringLive ≤ 1 then some 0
    else if stack.top = 1 then stack.capacity?
    else minus? stack.top 1

/-- The count of a ring after a push. -/
def counted? (stack : ShadowStack) (overflowed : Bool) : Option Nat :=
  if stack.policy = .wrap ∧ ¬overflowed then plus? stack.ringLive 1 else some stack.ringLive

def push? (stack : ShadowStack) (frame : Frame) : Option (ShadowStack × Bool) := do
  let (next, overflowed) ← stack.advance?
  let _ ← stack.frameAt? next
  let ringLive ← stack.counted? overflowed
  let entries := stack.entries.setIfInBounds next frame
  return ({ stack with entries, top := next, ringLive }, overflowed)

/-- The count of an empty ring is below nothing as well. -/
def pop? (stack : ShadowStack) : Option ShadowStack :=
  if stack.isEmpty then some stack
  else
    stack.retreat?.map fun top =>
      { stack with
        top
        ringLive := if stack.policy = .wrap then stack.ringLive - 1 else stack.ringLive }

/-- No operation on the stack wraps around or touches storage outside of it, and each gives what the
plain operation gives. -/
structure Exact (stack : ShadowStack) : Prop where
  capacity : stack.capacity? = some stack.capacity
  peek : stack.frameAt? stack.top = some stack.peek
  advance : stack.advance? = some stack.advance
  retreat : stack.retreat? = some stack.retreat
  push : ∀ frame, stack.push? frame = some (stack.push frame)
  pop : stack.pop? = some stack.pop

/-! ## Where they do not fail -/

variable {stack : ShadowStack}

namespace WellFormed

theorem capacity?_eq (wf : stack.WellFormed) : stack.capacity? = some stack.capacity := by
  have limit := wf.limit_eq
  unfold capacity?
  rw [minus?_of_le (by omega)]
  rfl

theorem advance?_eq (wf : stack.WellFormed) (words : stack.limit < UInt64.size) :
    stack.advance? = some stack.advance := by
  have limit := wf.limit_eq
  have bounded := wf.top_le
  unfold advance? advance
  rw [plus?_of_lt (by omega), wf.capacity?_eq]
  cases stack.policy with
  | reset => simp
  | wrap => simp

theorem retreat?_eq (wf : stack.WellFormed) : stack.retreat? = some stack.retreat := by
  unfold retreat? retreat
  cases policy : stack.policy with
  | reset => rfl
  | wrap =>
    dsimp only
    split
    · rfl
    · next more =>
      split
      · exact wf.capacity?_eq
      · -- more than one frame is live, so the top is not the base
        have count : stack.live = stack.ringLive := live_of_wrap policy
        have above : stack.top ≠ 0 := fun base => by
          have none := wf.top_eq_zero_iff.1 base
          omega
        exact minus?_of_le (Nat.pos_of_ne_zero above)

theorem counted?_eq (wf : stack.WellFormed) (words : stack.limit < UInt64.size)
    (overflowed : Bool) :
    stack.counted? overflowed =
      some (if stack.policy = .wrap ∧ ¬overflowed then stack.ringLive + 1
        else stack.ringLive) := by
  have limit := wf.limit_eq
  unfold counted?
  split
  · next ring =>
    have bounded := wf.live_le
    rw [live_of_wrap ring.1] at bounded
    exact plus?_of_lt (by omega)
  · rfl

theorem push?_eq (wf : stack.WellFormed) (words : stack.limit < UInt64.size) (frame : Frame) :
    stack.push? frame = some (stack.push frame) := by
  have limit := wf.limit_eq
  have inside : stack.advance.1 < stack.limit := by
    have bounded := wf.top_le
    have room := wf.capacity_pos
    rw [wf.advance_fst]
    split <;> omega
  obtain ⟨held, found⟩ : ∃ held, stack.frameAt? stack.advance.1 = some held :=
    ⟨_, Array.getElem?_eq_getElem inside⟩
  unfold push? ShadowStack.push
  rw [wf.advance?_eq words]
  simp only [Option.bind_eq_bind, Option.bind_some, found, wf.counted?_eq words, Option.pure_def]

theorem pop?_eq (wf : stack.WellFormed) : stack.pop? = some stack.pop := by
  unfold pop? ShadowStack.pop
  rw [wf.retreat?_eq]
  split
  · rfl
  · rfl

theorem exact (wf : stack.WellFormed) (words : stack.limit < UInt64.size) : stack.Exact where
  capacity := wf.capacity?_eq
  peek := wf.frameAt?_top
  advance := wf.advance?_eq words
  retreat := wf.retreat?_eq
  push := wf.push?_eq words
  pop := wf.pop?_eq

end WellFormed

end ShadowStack

end TransferCache
