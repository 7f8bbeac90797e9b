import TransferCache.Shadow.Stack

/-!
# The frames of a shadow stack

The ring keeps frames in storage that no pop can reach any more. This module says where the live
ones are: `ShadowStack.WellFormed` is what every push, pop and flush keeps, and through
`ShadowStack.frames` each of them is an operation on a list, newest frame first.

* `frames_push`: a push on a full ring forgets the oldest frame, and under the reset policy a push
  on a full stack forgets all of them.
* `frames_pop`: a pop drops the newest frame.
* `peek_eq`: the top frame is the newest one, or the base frame when there is none.
-/

namespace TransferCache

/-- The frames of a stack after a push, given those before it. -/
def OverflowPolicy.pushed (policy : OverflowPolicy) (capacity : Nat) (frame : Frame)
    (frames : List Frame) : List Frame :=
  match policy with
  | .wrap => (frame :: frames).take capacity
  | .reset => if frames.length < capacity then frame :: frames else [frame]

namespace OverflowPolicy

variable {policy : OverflowPolicy} {capacity : Nat} {frame other : Frame} {frames : List Frame}

/-- A push brings in no frame but its own. -/
theorem mem_of_mem_pushed (member : other ∈ policy.pushed capacity frame frames) :
    other = frame ∨ other ∈ frames := by
  cases policy with
  | wrap => exact List.mem_cons.1 (List.mem_of_mem_take member)
  | reset =>
    by_cases space : frames.length < capacity
    · exact List.mem_cons.1 (by simpa only [pushed, if_pos space] using member)
    · exact Or.inl (List.mem_singleton.1 (by simpa only [pushed, if_neg space] using member))

/-- A push keeps the newest frames, its own included. -/
theorem pushed_prefix : policy.pushed capacity frame frames <+: frame :: frames := by
  cases policy with
  | wrap => exact List.take_prefix _ _
  | reset =>
    by_cases space : frames.length < capacity
    · have whole : OverflowPolicy.reset.pushed capacity frame frames = frame :: frames :=
        if_pos space
      exact whole ▸ List.prefix_rfl
    · rw [pushed, if_neg space]
      exact List.prefix_append [frame] frames

theorem length_pushed_le (room : 0 < capacity) :
    (policy.pushed capacity frame frames).length ≤ capacity := by
  cases policy with
  | wrap => exact List.length_take_le _ _
  | reset =>
    by_cases space : frames.length < capacity
    · rw [pushed, if_pos space]
      exact space
    · rw [pushed, if_neg space]
      exact room

/-- The newest frame is the pushed one. -/
theorem getElem?_pushed_zero (room : 0 < capacity) :
    (policy.pushed capacity frame frames)[0]? = some frame := by
  cases policy with
  | wrap => simp [pushed, room]
  | reset =>
    simp only [pushed]
    split <;> rfl

/-- Every other frame that is kept is one push older. -/
theorem getElem?_pushed_succ {age : Nat}
    (kept : age + 1 < (policy.pushed capacity frame frames).length) :
    (policy.pushed capacity frame frames)[age + 1]? = frames[age]? := by
  cases policy with
  | wrap =>
    have inside : age + 1 < capacity :=
      Nat.lt_of_lt_of_le kept (by simp only [pushed, List.length_take]; omega)
    simp [pushed, inside]
  | reset =>
    simp only [pushed] at kept ⊢
    split
    · exact List.getElem?_cons_succ
    · next full =>
      rw [if_neg full] at kept
      cases kept with
      | step impossible => cases impossible

theorem length_pushed (bounded : frames.length ≤ capacity) :
    (policy.pushed capacity frame frames).length =
      if frames.length < capacity then frames.length + 1
      else if policy = .wrap then frames.length else 1 := by
  cases policy with
  | wrap =>
    simp only [pushed, List.length_take, List.length_cons, if_true]
    split <;> omega
  | reset =>
    simp only [pushed, reduceCtorEq, if_false]
    split <;> rfl

end OverflowPolicy

namespace ShadowStack

/-- Top and live count stay within the capacity, the top is the base exactly when no frame is live,
and the base frame is in its place. -/
structure WellFormed (stack : ShadowStack) : Prop where
  capacity_pos : 0 < stack.capacity
  top_le : stack.top ≤ stack.capacity
  live_le : stack.live ≤ stack.capacity
  top_eq_zero_iff : stack.top = 0 ↔ stack.live = 0
  base_at : stack.frameAt? 0 = some .base

variable {stack : ShadowStack}

theorem limit_eq_of_pos (room : 0 < stack.capacity) : stack.limit = stack.capacity + 1 := by
  unfold capacity at room ⊢
  unfold limit
  omega

theorem WellFormed.limit_eq (wf : stack.WellFormed) : stack.limit = stack.capacity + 1 :=
  limit_eq_of_pos wf.capacity_pos

theorem live_of_reset (policy : stack.policy = .reset) : stack.live = stack.top := by
  unfold live
  rw [policy]

theorem live_of_wrap (policy : stack.policy = .wrap) : stack.live = stack.ringLive := by
  unfold live
  rw [policy]

@[simp] theorem policy_push (stack : ShadowStack) (frame : Frame) :
    (stack.push frame).1.policy = stack.policy := rfl

@[simp] theorem policy_pop (stack : ShadowStack) : stack.pop.policy = stack.policy := by
  unfold pop
  split <;> rfl

/-- A pop from a ring steps back and counts down. -/
theorem pop_of_wrap (policy : stack.policy = .wrap) (busy : ¬stack.isEmpty = true) :
    stack.pop = { stack with top := stack.retreat, ringLive := stack.ringLive - 1 } := by
  unfold pop
  rw [if_neg busy, if_pos policy]

/-- A pop under the reset policy steps to the index below. -/
theorem pop_of_reset (policy : stack.policy = .reset) (busy : ¬stack.isEmpty = true) :
    stack.pop = { stack with top := stack.top - 1 } := by
  unfold pop retreat
  simp only [policy, reduceCtorEq, if_false, busy]

/-! ## Indices -/

/-- The index of the next push. -/
theorem WellFormed.advance_fst (wf : stack.WellFormed) :
    stack.advance.1 = if stack.top = stack.capacity then 1 else stack.top + 1 := by
  have limit := wf.limit_eq
  have bounded := wf.top_le
  unfold advance
  by_cases full : stack.top = stack.capacity
  · have wrapped : stack.limit ≤ stack.top + 1 := by omega
    simp [full, limit]
  · have inside : ¬stack.limit ≤ stack.top + 1 := by omega
    simp [full, inside]

/-- A push discards a live frame exactly when as many frames are live as the stack has room for. -/
theorem WellFormed.advance_snd (wf : stack.WellFormed) :
    stack.advance.2 = decide (stack.live = stack.capacity) := by
  have limit := wf.limit_eq
  have bounded := wf.top_le
  unfold advance live
  cases stack.policy with
  | reset =>
    simp only [decide_eq_decide]
    omega
  | wrap => rfl

/-! ## The list of frames -/

@[simp] theorem length_frames (stack : ShadowStack) : stack.frames.length = stack.live := by
  simp [frames]

theorem getElem?_frames (stack : ShadowStack) (age : Nat) :
    stack.frames[age]? =
      if age < stack.live then some ((stack.frameAt? (stack.indexOfAge age)).getD .base)
      else none := by
  unfold frames
  rw [List.getElem?_map]
  split
  · next young => rw [List.getElem?_range young, Option.map_some]
  · next old => rw [List.getElem?_eq_none (by simpa using old), Option.map_none]

theorem WellFormed.frames_eq_nil_iff (wf : stack.WellFormed) :
    stack.frames = [] ↔ stack.isEmpty = true := by
  rw [← List.length_eq_zero_iff, length_frames, ← wf.top_eq_zero_iff]
  unfold isEmpty
  rw [decide_eq_true_iff]

/-- The top frame is the newest one, or the base frame when there is none. -/
theorem WellFormed.peek_eq (wf : stack.WellFormed) :
    stack.peek = stack.frames.head?.getD .base := by
  have atTop := wf.top_eq_zero_iff
  rw [List.head?_eq_getElem?, getElem?_frames]
  by_cases empty : stack.live = 0
  · have top : stack.top = 0 := atTop.2 empty
    rw [if_neg (by omega)]
    unfold peek
    rw [top, wf.base_at]
    rfl
  · have index : stack.indexOfAge 0 = stack.top := by
      unfold indexOfAge
      rw [if_pos (by omega)]
      omega
    rw [if_pos (by omega), index]
    rfl

/-- The top index names the top frame. -/
theorem frameAt?_top_of_lt (inside : stack.top < stack.limit) :
    stack.frameAt? stack.top = some stack.peek := by
  unfold limit at inside
  unfold peek frameAt?
  rw [Array.getElem?_eq_getElem inside]
  rfl

theorem WellFormed.frameAt?_top (wf : stack.WellFormed) :
    stack.frameAt? stack.top = some stack.peek := by
  have limit := wf.limit_eq
  have bounded := wf.top_le
  exact frameAt?_top_of_lt (by omega)

/-! ## Stores by compiled code -/

@[simp] theorem limit_setEntry (stack : ShadowStack) (index : Nat) (frame : Frame) :
    (stack.setEntry index frame).limit = stack.limit :=
  Array.size_setIfInBounds

theorem frameAt?_setEntry {index : Nat} (inside : index < stack.limit) (frame : Frame) :
    (stack.setEntry index frame).frameAt? index = some frame :=
  Array.getElem?_setIfInBounds_self_of_lt inside

theorem setEntry_setEntry (stack : ShadowStack) (index : Nat) (frame other : Frame) :
    (stack.setEntry index frame).setEntry index other = stack.setEntry index other := by
  unfold setEntry
  rw [Array.setIfInBounds_setIfInBounds]

/-! ## Creation and flushes -/

theorem wellFormed_ofCapacity {capacity : Nat} (room : 0 < capacity) (policy : OverflowPolicy) :
    (ofCapacity capacity policy).WellFormed := by
  refine ⟨by simpa using room, Nat.zero_le _, ?_, ?_, ?_⟩
  · cases policy <;> exact Nat.zero_le _
  · cases policy <;> exact Iff.rfl
  · simp [frameAt?, ofCapacity]

theorem WellFormed.flush (wf : stack.WellFormed) : stack.flush.WellFormed := by
  obtain ⟨entries, top, ringLive, policy⟩ := stack
  refine ⟨wf.capacity_pos, Nat.zero_le _, ?_, ?_, wf.base_at⟩
  · cases policy <;> exact Nat.zero_le _
  · cases policy <;> exact Iff.rfl

/-! ## Pushes -/

theorem WellFormed.live_push (wf : stack.WellFormed) (frame : Frame) :
    (stack.push frame).1.live =
      if stack.live < stack.capacity then stack.live + 1
      else if stack.policy = .wrap then stack.live else 1 := by
  have bounded := wf.live_le
  have next := wf.advance_fst
  have overflowed := wf.advance_snd
  cases policy : stack.policy with
  | reset =>
    have top := live_of_reset policy
    have pushed : (stack.push frame).1.live = (stack.push frame).1.top := live_of_reset policy
    rw [pushed]
    change stack.advance.1 = _
    rw [next, top]
    split <;> split <;> first | rfl | omega
  | wrap =>
    have counted := live_of_wrap policy
    have pushed : (stack.push frame).1.live = (stack.push frame).1.ringLive := live_of_wrap policy
    rw [pushed]
    change (if stack.policy = .wrap ∧ ¬stack.advance.2 = true then stack.ringLive + 1
      else stack.ringLive) = _
    rw [overflowed, policy, counted]
    simp only [true_and, decide_eq_true_eq, if_true]
    split <;> split <;> omega

theorem WellFormed.push (wf : stack.WellFormed) (frame : Frame) :
    (stack.push frame).1.WellFormed := by
  have room := wf.capacity_pos
  have top : (stack.push frame).1.top = stack.advance.1 := rfl
  have next := wf.advance_fst
  have bounded := wf.top_le
  have live := wf.live_push frame
  have count := wf.live_le
  refine ⟨by simpa using room, ?_, ?_, ?_, ?_⟩
  · rw [top, next, capacity_push]
    split <;> omega
  · rw [live, capacity_push]
    split
    · omega
    · split <;> omega
  · rw [top, next, live]
    split <;> split <;> (try split) <;> omega
  · have apart : stack.advance.1 ≠ 0 := by
      rw [next]
      split <;> omega
    change (stack.entries.setIfInBounds stack.advance.1 frame)[0]? = _
    rw [Array.getElem?_setIfInBounds_ne apart]
    exact wf.base_at

/-- Where a frame of the stack after a push comes from. -/
theorem WellFormed.frameAt?_push (wf : stack.WellFormed) (frame : Frame) (index : Nat) :
    (stack.push frame).1.frameAt? index =
      if stack.advance.1 = index then some frame else stack.frameAt? index := by
  change (stack.entries.setIfInBounds stack.advance.1 frame)[index]? = _
  have inside : stack.advance.1 < stack.entries.size := by
    have limit := wf.limit_eq
    have next := wf.advance_fst
    have room := wf.capacity_pos
    have bounded := wf.top_le
    unfold ShadowStack.limit at limit
    rw [next, limit]
    split <;> omega
  split
  · next same =>
    subst same
    exact Array.getElem?_setIfInBounds_self_of_lt inside
  · next apart => exact Array.getElem?_setIfInBounds_ne apart

/-- A frame that a push keeps is one push older afterwards and stays where it is. -/
theorem WellFormed.indexOfAge_push (wf : stack.WellFormed) (frame : Frame) {age : Nat}
    (kept : age + 1 < (stack.push frame).1.live) :
    (stack.push frame).1.indexOfAge (age + 1) = stack.indexOfAge age ∧
      stack.advance.1 ≠ stack.indexOfAge age := by
  have bounded := wf.top_le
  have count := wf.live_le
  have room := wf.capacity_pos
  have empty := wf.top_eq_zero_iff
  rw [wf.live_push frame] at kept
  have top : (stack.push frame).1.top = stack.advance.1 := rfl
  unfold indexOfAge
  rw [top, capacity_push, wf.advance_fst]
  cases policy : stack.policy with
  | reset =>
    have live := live_of_reset policy
    simp only [policy, reduceCtorEq, if_false] at kept
    split at kept <;> split <;> (try split) <;> (try split) <;> omega
  | wrap =>
    simp only [policy, if_true] at kept
    split at kept <;> split <;> (try split) <;> (try split) <;> omega

theorem WellFormed.frames_push (wf : stack.WellFormed) (frame : Frame) :
    (stack.push frame).1.frames =
      stack.policy.pushed stack.capacity frame stack.frames := by
  have room := wf.capacity_pos
  have live := wf.live_push frame
  have length : (stack.push frame).1.live =
      (stack.policy.pushed stack.capacity frame stack.frames).length := by
    rw [OverflowPolicy.length_pushed (by simpa using wf.live_le), length_frames, live]
  have positive : 0 < stack.advance.1 := by
    rw [wf.advance_fst]
    split <;> omega
  have newest : (stack.push frame).1.indexOfAge 0 = stack.advance.1 := if_pos positive
  refine List.ext_getElem? fun age => ?_
  rw [getElem?_frames]
  by_cases kept : age < (stack.push frame).1.live
  · rw [if_pos kept]
    cases age with
    | zero =>
      rw [newest, wf.frameAt?_push frame, if_pos rfl, OverflowPolicy.getElem?_pushed_zero room]
      rfl
    | succ age =>
      obtain ⟨index, apart⟩ := wf.indexOfAge_push frame kept
      have young : age < stack.live := by
        rw [live] at kept
        split at kept
        · omega
        · split at kept <;> omega
      rw [OverflowPolicy.getElem?_pushed_succ (length ▸ kept), getElem?_frames, if_pos young,
        index, wf.frameAt?_push frame, if_neg apart]
  · rw [if_neg kept, List.getElem?_eq_none (by omega)]

/-! ## Pops -/

theorem WellFormed.live_pop (wf : stack.WellFormed) : stack.pop.live = stack.live - 1 := by
  have empty := wf.top_eq_zero_iff
  have kind := policy_pop stack
  by_cases bare : stack.isEmpty = true
  · have live : stack.live = 0 := empty.1 (of_decide_eq_true bare)
    unfold ShadowStack.pop
    rw [if_pos bare, live]
  · cases policy : stack.policy with
    | reset =>
      rw [live_of_reset policy, live_of_reset (kind.trans policy)]
      unfold ShadowStack.pop retreat
      rw [if_neg bare, policy]
    | wrap =>
      rw [live_of_wrap policy, live_of_wrap (kind.trans policy)]
      unfold ShadowStack.pop
      rw [if_neg bare]
      exact if_pos policy

theorem WellFormed.top_pop (wf : stack.WellFormed) :
    stack.pop.top =
      if stack.live ≤ 1 then 0 else if stack.top = 1 then stack.capacity else stack.top - 1 := by
  have empty := wf.top_eq_zero_iff
  unfold ShadowStack.pop isEmpty
  split
  · next bare =>
    have top : stack.top = 0 := of_decide_eq_true bare
    rw [if_pos (by omega)]
    exact top
  · change stack.retreat = _
    unfold retreat
    cases policy : stack.policy with
    | reset =>
      have live := live_of_reset policy
      simp only
      split
      · omega
      · split <;> omega
    | wrap => rw [live_of_wrap policy]

theorem frameAt?_pop (stack : ShadowStack) (index : Nat) :
    stack.pop.frameAt? index = stack.frameAt? index := by
  unfold ShadowStack.pop
  split <;> rfl

theorem WellFormed.pop (wf : stack.WellFormed) : stack.pop.WellFormed := by
  have bounded := wf.top_le
  have count := wf.live_le
  have room := wf.capacity_pos
  have empty := wf.top_eq_zero_iff
  refine ⟨by simpa using room, ?_, ?_, ?_, (frameAt?_pop stack 0).trans wf.base_at⟩
  · rw [wf.top_pop, capacity_pop]
    split
    · omega
    · split <;> omega
  · rw [wf.live_pop, capacity_pop]
    omega
  · rw [wf.top_pop, wf.live_pop]
    split
    · omega
    · split <;> omega

/-- A pop drops the newest frame, and does nothing to a stack without frames. -/
theorem WellFormed.frames_pop (wf : stack.WellFormed) : stack.pop.frames = stack.frames.tail := by
  have bounded := wf.top_le
  have count := wf.live_le
  have empty := wf.top_eq_zero_iff
  refine List.ext_getElem? fun age => ?_
  rw [List.getElem?_tail, getElem?_frames, getElem?_frames, wf.live_pop]
  by_cases kept : age < stack.live - 1
  · have index : stack.pop.indexOfAge age = stack.indexOfAge (age + 1) := by
      unfold indexOfAge
      rw [wf.top_pop, capacity_pop]
      split
      · omega
      · split <;> split <;> split <;> omega
    rw [if_pos kept, if_pos (by omega), frameAt?_pop, index]
  · rw [if_neg kept, if_neg (by omega)]

end ShadowStack

end TransferCache
