import Mathlib.Logic.Basic
import TransferCache.Proofs.Shadow.Frames

/-!
# Shadow stacks are bounded lists

A shadow stack keeps its frames in a ring and leaves old ones in storage. To whoever pushes, pops
and flushes it is a list of at most as many frames as it has room for, newest first: a push adds one
and says whether there was no room, a pop drops the newest, a flush drops all.

* `Refines.step`: each operation is the same operation on the list.
* `Refines.shows`: everything that can be read from a stack is read off its list.
* `Alike.step`: indices and counts depend on what was done, never on the frames in storage.
* `run_refines`: all of it for every run of a stack as it is built, before and after a flush.
-/

namespace TransferCache

/-- An operation of a shadow stack. -/
inductive StackAction where
  | push (frame : Frame)
  | pop
  | flush
  deriving DecidableEq, Repr

namespace OverflowPolicy

/-- An operation on a list of at most `capacity` frames, newest first, and whether it is a push that
finds no room. -/
def onFrames (policy : OverflowPolicy) (capacity : Nat) (frames : List Frame) :
    StackAction → List Frame × Bool
  | .push frame => (policy.pushed capacity frame frames, frames.length = capacity)
  | .pop => (frames.tail, false)
  | .flush => ([], false)

/-- Operations on a list in order, with what each of them says. -/
def runOnFrames (policy : OverflowPolicy) (capacity : Nat) :
    List Frame → List StackAction → List Frame × List Bool
  | frames, [] => (frames, [])
  | frames, action :: actions =>
    let (next, full) := policy.onFrames capacity frames action
    let (last, rest) := policy.runOnFrames capacity next actions
    (last, full :: rest)

end OverflowPolicy

namespace ShadowStack

/-- One operation, and whether it is a push that discards a live frame. -/
def step (stack : ShadowStack) : StackAction → ShadowStack × Bool
  | .push frame => stack.push frame
  | .pop => (stack.pop, false)
  | .flush => (stack.flush, false)

/-- Operations in order, with what each of them says. -/
def run (stack : ShadowStack) : List StackAction → ShadowStack × List Bool
  | [] => (stack, [])
  | action :: actions =>
    let (next, full) := stack.step action
    let (last, rest) := next.run actions
    (last, full :: rest)

variable {stack other : ShadowStack} {capacity : Nat} {policy : OverflowPolicy}
  {frames : List Frame}

/-! ## Where the live frames are -/

/-- A live frame lies inside the stack, above the base. -/
theorem WellFormed.indexOfAge_bounds (wf : stack.WellFormed) {age : Nat}
    (young : age < stack.live) :
    0 < stack.indexOfAge age ∧ stack.indexOfAge age < stack.limit := by
  have limit := wf.limit_eq
  have bounded := wf.top_le
  have count := wf.live_le
  have empty := wf.top_eq_zero_iff
  unfold indexOfAge
  split <;> omega

/-- The index of a live frame names it. -/
theorem WellFormed.frameAt?_indexOfAge (wf : stack.WellFormed) {age : Nat}
    (young : age < stack.live) :
    stack.frameAt? (stack.indexOfAge age) = stack.frames[age]? := by
  have inside : stack.indexOfAge age < stack.entries.size := (wf.indexOfAge_bounds young).2
  rw [getElem?_frames, if_pos young]
  unfold frameAt?
  rw [Array.getElem?_eq_getElem inside, Option.getD_some]

/-- The top retreats to the second newest frame, or to the base if there is none. -/
theorem WellFormed.retreat_eq (wf : stack.WellFormed) :
    stack.retreat = if stack.live ≤ 1 then baseIndex else stack.indexOfAge 1 := by
  have bounded := wf.top_le
  have empty := wf.top_eq_zero_iff
  unfold retreat indexOfAge baseIndex
  cases policy : stack.policy with
  | reset =>
    have live := live_of_reset policy
    simp only
    split
    · omega
    · rw [if_pos (by omega)]
  | wrap =>
    have live := live_of_wrap policy
    simp only [← live]
    split
    · rfl
    · split
      · rw [if_neg (by omega)]
        omega
      · rw [if_pos (by omega)]

/-! ## What can be read from a stack -/

/-- Everything that can be read from a stack says that it holds these frames, newest first. -/
structure Shows (stack : ShadowStack) (frames : List Frame) : Prop where
  frames_eq : stack.frames = frames
  live_eq : stack.live = frames.length
  peek_eq : stack.peek = frames.head?.getD .base
  isEmpty_iff : stack.isEmpty = true ↔ frames = []
  top_lt : stack.top < stack.limit
  top_eq_base_iff : stack.top = baseIndex ↔ stack.live = 0
  frameAt?_base : stack.frameAt? baseIndex = some .base
  retreat_of_lt : frames.length < 2 → stack.retreat = baseIndex
  retreat_of_le : 2 ≤ frames.length →
    stack.retreat ≠ baseIndex ∧ stack.frameAt? stack.retreat = frames[1]?

/-- A stack of this capacity and policy that stands for these frames. -/
structure Refines (stack : ShadowStack) (capacity : Nat) (policy : OverflowPolicy)
    (frames : List Frame) : Prop where
  wf : stack.WellFormed
  capacity_eq : stack.capacity = capacity
  policy_eq : stack.policy = policy
  frames_eq : stack.frames = frames

theorem Refines.shows (refines : stack.Refines capacity policy frames) : stack.Shows frames := by
  obtain ⟨wf, -, -, rfl⟩ := refines
  have limit := wf.limit_eq
  have bounded := wf.top_le
  have retreat := wf.retreat_eq
  have live := length_frames stack
  refine ⟨rfl, live.symm, wf.peek_eq, wf.frames_eq_nil_iff.symm, by omega, wf.top_eq_zero_iff,
    wf.base_at, ?_, ?_⟩
  · intro few
    rw [retreat, if_pos (by omega)]
  · intro several
    have young : 1 < stack.live := by omega
    rw [retreat, if_neg (by omega)]
    exact ⟨Nat.ne_of_gt (wf.indexOfAge_bounds young).1, wf.frameAt?_indexOfAge young⟩

/-! ## Operations on stacks and on lists -/

theorem refines_ofCapacity (room : 0 < capacity) (policy : OverflowPolicy) :
    (ofCapacity capacity policy).Refines capacity policy [] :=
  ⟨wellFormed_ofCapacity room policy, capacity_ofCapacity capacity policy, rfl,
    frames_ofCapacity capacity policy⟩

theorem Refines.flush (refines : stack.Refines capacity policy frames) :
    stack.flush.Refines capacity policy [] :=
  ⟨refines.wf.flush, refines.capacity_eq, refines.policy_eq, frames_flush stack⟩

theorem Refines.step (refines : stack.Refines capacity policy frames) (action : StackAction) :
    (stack.step action).1.Refines capacity policy (policy.onFrames capacity frames action).1 ∧
      (stack.step action).2 = (policy.onFrames capacity frames action).2 := by
  cases action with
  | push frame =>
    obtain ⟨wf, rfl, rfl, rfl⟩ := refines
    refine ⟨⟨wf.push frame, capacity_push stack frame, rfl, wf.frames_push frame⟩, ?_⟩
    refine wf.advance_snd.trans ?_
    rw [← length_frames stack]
    rfl
  | pop =>
    obtain ⟨wf, rfl, rfl, rfl⟩ := refines
    exact ⟨⟨wf.pop, capacity_pop stack, policy_pop stack, wf.frames_pop⟩, rfl⟩
  | flush => exact ⟨refines.flush, rfl⟩

theorem Refines.run (refines : stack.Refines capacity policy frames) (actions : List StackAction) :
    (stack.run actions).1.Refines capacity policy (policy.runOnFrames capacity frames actions).1 ∧
      (stack.run actions).2 = (policy.runOnFrames capacity frames actions).2 := by
  induction actions generalizing stack frames with
  | nil => exact ⟨refines, rfl⟩
  | cons action actions ih =>
    obtain ⟨after, full⟩ := refines.step action
    obtain ⟨last, rest⟩ := ih after
    exact ⟨last, congrArg₂ List.cons full rest⟩

/-! ## Storage is never looked at -/

/-- Two stacks that differ in the frames in storage alone. -/
structure Alike (stack other : ShadowStack) : Prop where
  top_eq : stack.top = other.top
  ringLive_eq : stack.ringLive = other.ringLive
  policy_eq : stack.policy = other.policy
  limit_eq : stack.limit = other.limit

theorem Alike.advance (alike : stack.Alike other) : stack.advance = other.advance := by
  have capacity : stack.capacity = other.capacity := congrArg (· - 1) alike.limit_eq
  unfold ShadowStack.advance
  rw [alike.top_eq, alike.ringLive_eq, alike.policy_eq, alike.limit_eq, capacity]

theorem Alike.retreat (alike : stack.Alike other) : stack.retreat = other.retreat := by
  have capacity : stack.capacity = other.capacity := congrArg (· - 1) alike.limit_eq
  unfold ShadowStack.retreat
  rw [alike.top_eq, alike.ringLive_eq, alike.policy_eq, capacity]

theorem Alike.push (alike : stack.Alike other) (frame : Frame) :
    (stack.push frame).1.Alike (other.push frame).1 ∧
      (stack.push frame).2 = (other.push frame).2 := by
  have advance := alike.advance
  have next : stack.advance.1 = other.advance.1 := congrArg Prod.fst advance
  have full : stack.advance.2 = other.advance.2 := congrArg Prod.snd advance
  refine ⟨⟨next, ?_, alike.policy_eq, ?_⟩, full⟩
  · unfold ShadowStack.push
    simp only [advance, alike.ringLive_eq, alike.policy_eq]
  · exact Array.size_setIfInBounds.trans (alike.limit_eq.trans Array.size_setIfInBounds.symm)

theorem Alike.pop (alike : stack.Alike other) : stack.pop.Alike other.pop := by
  have empty : stack.isEmpty = other.isEmpty := by
    unfold isEmpty
    rw [alike.top_eq]
  unfold ShadowStack.pop
  rw [empty]
  split
  · exact alike
  · refine ⟨alike.retreat, ?_, alike.policy_eq, alike.limit_eq⟩
    simp only [alike.ringLive_eq, alike.policy_eq]

theorem Alike.step (alike : stack.Alike other) (action : StackAction) :
    (stack.step action).1.Alike (other.step action).1 ∧
      (stack.step action).2 = (other.step action).2 := by
  cases action with
  | push frame => exact alike.push frame
  | pop => exact ⟨alike.pop, rfl⟩
  | flush => exact ⟨⟨rfl, rfl, alike.policy_eq, alike.limit_eq⟩, rfl⟩

theorem Alike.run (alike : stack.Alike other) (actions : List StackAction) :
    (stack.run actions).1.Alike (other.run actions).1 ∧
      (stack.run actions).2 = (other.run actions).2 := by
  induction actions generalizing stack other with
  | nil => exact ⟨alike, rfl⟩
  | cons action actions ih =>
    obtain ⟨after, full⟩ := alike.step action
    obtain ⟨last, rest⟩ := ih after
    exact ⟨last, congrArg₂ List.cons full rest⟩

/-- A flushed stack differs from an empty one in the frames in storage alone. -/
theorem Refines.flush_alike (refines : stack.Refines capacity policy frames) :
    stack.flush.Alike (ofCapacity capacity policy) := by
  have limit : stack.limit = capacity + 1 := by
    rw [refines.wf.limit_eq, refines.capacity_eq]
  exact ⟨rfl, rfl, refines.policy_eq, limit.trans Array.size_replicate.symm⟩

/-! ## Runs of an empty stack -/

/-- There is an empty stack of any capacity whose storage, the base included, is counted by a word.
Whatever is done to it, each push says what it would say of a list, and the stack shows the frames
of the list. After a flush, which leaves the frames in storage, everything goes on as it does for an
empty stack. -/
theorem run_refines (room : 0 < capacity) (stored : capacity + 1 < UInt64.size)
    (policy : OverflowPolicy) (actions : List StackAction) :
    ∃ empty, ofCapacity? capacity policy = some empty ∧
      let reached := (empty.run actions).1
      (empty.run actions).2 = (policy.runOnFrames capacity [] actions).2 ∧
        reached.Shows (policy.runOnFrames capacity [] actions).1 ∧
        reached.flush.entries = reached.entries ∧
        ∀ later,
          (reached.flush.run later).2 = (empty.run later).2 ∧
            (reached.flush.run later).1.Alike (empty.run later).1 ∧
            (reached.flush.run later).1.Shows (policy.runOnFrames capacity [] later).1 := by
  refine ⟨ofCapacity capacity policy, ofCapacity?_of_lt stored policy, ?_⟩
  intro reached
  obtain ⟨refines, said⟩ := (refines_ofCapacity room policy).run actions
  refine ⟨said, refines.shows, rfl, fun later => ?_⟩
  obtain ⟨alike, same⟩ := refines.flush_alike.run later
  exact ⟨same, alike, (refines.flush.run later).1.shows⟩

/-- Three calls on a ring with room for two frames, and a return. -/
def overflowing : List StackAction :=
  [.push ⟨⟨16⟩, ⟨0⟩⟩, .push ⟨⟨32⟩, ⟨1⟩⟩, .push ⟨⟨48⟩, ⟨2⟩⟩, .pop]

/-- The third push discards the oldest frame, and a pop after the next flush meets none of the
frames in storage. -/
theorem run_refines_overflowing :
    0 < 2 ∧ 2 + 1 < UInt64.size ∧
      ofCapacity? 2 .wrap = some (ofCapacity 2 .wrap) ∧
      ((ofCapacity 2 .wrap).run overflowing).2 = [false, false, true, false] ∧
      ((ofCapacity 2 .wrap).run overflowing).1.Shows [⟨⟨32⟩, ⟨1⟩⟩] ∧
      (((ofCapacity 2 .wrap).run overflowing).1.flush.run [.push ⟨⟨64⟩, ⟨3⟩⟩, .pop, .pop]).1.Shows
        [] := by
  have room : 0 < 2 := by decide
  have stored : 2 + 1 < UInt64.size := by decide
  obtain ⟨empty, built, said, shows, -, flushed⟩ := run_refines room stored .wrap overflowing
  obtain ⟨-, rfl⟩ := ofCapacity?_eq_some_iff.1 built
  obtain ⟨-, -, later⟩ := flushed [.push ⟨⟨64⟩, ⟨3⟩⟩, .pop, .pop]
  exact ⟨room, stored, built, said, shows, later⟩

end ShadowStack

end TransferCache
