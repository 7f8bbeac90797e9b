import TransferCache.Proofs.Shadow.Exact

/-!
# Stacks within their bounds

Compiled code stores the top and the live count one at a time, and all that is checked is that each
of them lies within the stack. So the two need not agree: a ring whose top is the base may count
live frames. `ShadowStack.InBounds` is what remains true, and it is enough for every push and every
pop to stay inside the storage.

* `InBounds.advance_lt`, `InBounds.retreat_lt`: where a push or a pop moves the top.
* `KeepsBounds`: what stores, pushes, pops and flushes keep.
-/

namespace TransferCache.ShadowStack

variable {stack after : ShadowStack}

/-- The top is an index of the stack, and no more frames are counted than there is room for. -/
structure InBounds (stack : ShadowStack) : Prop where
  capacity_pos : 0 < stack.capacity
  top_lt : stack.top < stack.limit
  live_le : stack.live ≤ stack.capacity

theorem WellFormed.inBounds (wf : stack.WellFormed) : stack.InBounds where
  capacity_pos := wf.capacity_pos
  top_lt := by
    rw [wf.limit_eq]
    exact Nat.lt_succ_of_le wf.top_le
  live_le := wf.live_le

namespace InBounds

theorem limit_eq (bounds : stack.InBounds) : stack.limit = stack.capacity + 1 :=
  limit_eq_of_pos bounds.capacity_pos

theorem ringLive_le (bounds : stack.InBounds) (policy : stack.policy = .wrap) :
    stack.ringLive ≤ stack.capacity :=
  live_of_wrap policy ▸ bounds.live_le

/-- A push writes to an index of the stack. -/
theorem advance_lt (bounds : stack.InBounds) : stack.advance.1 < stack.limit := by
  have limit := bounds.limit_eq
  have room := bounds.capacity_pos
  unfold advance
  dsimp only
  split
  · omega
  · next inside => exact Nat.lt_of_not_le inside

/-- A pop of a stack that is not empty moves the top to an index of the stack. -/
theorem retreat_lt (bounds : stack.InBounds) (busy : stack.isEmpty = false) :
    stack.retreat < stack.limit := by
  have above : 0 < stack.top := Nat.pos_of_ne_zero (of_decide_eq_false busy)
  have limit := bounds.limit_eq
  have top := bounds.top_lt
  unfold retreat
  cases stack.policy with
  | reset => exact Nat.lt_trans (Nat.sub_lt above Nat.one_pos) top
  | wrap =>
    dsimp only
    split
    · omega
    · split <;> omega

/-- It does not step below the base on the way, whatever the live count. -/
theorem retreat?_eq (bounds : stack.InBounds) (busy : stack.isEmpty = false) :
    stack.retreat? = some stack.retreat := by
  have above : 0 < stack.top := Nat.pos_of_ne_zero (of_decide_eq_false busy)
  have whole : stack.capacity? = some stack.capacity := by
    have limit := bounds.limit_eq
    exact minus?_of_le (by omega)
  unfold retreat? retreat
  cases stack.policy with
  | reset => rfl
  | wrap =>
    dsimp only
    split
    · rfl
    · split
      · exact whole
      · exact minus?_of_le above

/-- There is a frame at the top. -/
theorem frameAt?_top (bounds : stack.InBounds) : stack.frameAt? stack.top = some stack.peek :=
  frameAt?_top_of_lt bounds.top_lt

end InBounds

/-! ## What is kept -/

/-- The later stack has the size and the policy of the earlier one, and is in bounds if that was. -/
structure KeepsBounds (before after : ShadowStack) : Prop where
  limit_eq : after.limit = before.limit
  policy_eq : after.policy = before.policy
  in_bounds : before.InBounds → after.InBounds

namespace KeepsBounds

theorem refl (stack : ShadowStack) : KeepsBounds stack stack := ⟨rfl, rfl, id⟩

theorem trans {before middle after : ShadowStack} (first : KeepsBounds before middle)
    (second : KeepsBounds middle after) : KeepsBounds before after :=
  ⟨second.limit_eq.trans first.limit_eq, second.policy_eq.trans first.policy_eq,
    second.in_bounds ∘ first.in_bounds⟩

end KeepsBounds

/-- It is enough to look at the top and, in a ring, at the live count: under the reset policy the
top is the live count. -/
theorem keepsBounds_of {before after : ShadowStack} (limit : after.limit = before.limit)
    (policy : after.policy = before.policy)
    (top : before.InBounds → after.top < before.limit)
    (ring : before.InBounds → before.policy = .wrap → after.ringLive ≤ before.capacity) :
    KeepsBounds before after := by
  have capacity : after.capacity = before.capacity := congrArg (· - 1) limit
  refine ⟨limit, policy, fun bounds => ⟨capacity ▸ bounds.capacity_pos, limit ▸ top bounds, ?_⟩⟩
  rw [capacity]
  cases chosen : before.policy with
  | reset =>
    have inside := top bounds
    rw [bounds.limit_eq] at inside
    rw [live_of_reset (policy.trans chosen)]
    exact Nat.le_of_lt_succ inside
  | wrap =>
    rw [live_of_wrap (policy.trans chosen)]
    exact ring bounds chosen

/-! ## Stores by compiled code -/

theorem keepsBounds_setEntry (stack : ShadowStack) (index : Nat) (frame : Frame) :
    stack.KeepsBounds (stack.setEntry index frame) :=
  keepsBounds_of (limit_setEntry stack index frame) rfl InBounds.top_lt InBounds.ringLive_le

theorem keepsBounds_of_setTop? {index : Nat} (moved : stack.setTop? index = some after) :
    stack.KeepsBounds after := by
  unfold setTop? at moved
  split at moved
  · next inside =>
    cases moved
    exact keepsBounds_of rfl rfl (fun _ => inside) InBounds.ringLive_le
  · cases moved

theorem keepsBounds_of_setLive? {count : Nat} (counted : stack.setLive? count = some after) :
    stack.KeepsBounds after := by
  unfold setLive? at counted
  split at counted
  · next bounded =>
    cases counted
    exact keepsBounds_of rfl rfl InBounds.top_lt fun _ _ => bounded
  · cases counted

/-! ## Pushes, pops and flushes -/

/-- A ring counts a push only if it is not full. -/
theorem keepsBounds_push (stack : ShadowStack) (frame : Frame) :
    stack.KeepsBounds (stack.push frame).1 := by
  refine keepsBounds_of Array.size_setIfInBounds rfl InBounds.advance_lt fun bounds policy => ?_
  have counted := bounds.ringLive_le policy
  have full : stack.advance.2 = decide (stack.ringLive = stack.capacity) := by
    unfold advance
    rw [policy]
  change (if stack.policy = .wrap ∧ ¬stack.advance.2 = true then _ else _) ≤ _
  rw [full]
  split
  · next room => exact Nat.lt_of_le_of_ne counted (of_decide_eq_false (Bool.eq_false_iff.2 room.2))
  · exact counted

theorem keepsBounds_pop (stack : ShadowStack) : stack.KeepsBounds stack.pop := by
  unfold pop
  split
  · exact .refl stack
  · next busy =>
    have moved := fun bounds : stack.InBounds => bounds.retreat_lt (Bool.eq_false_iff.2 busy)
    refine keepsBounds_of rfl rfl moved fun bounds policy => ?_
    have counted := bounds.ringLive_le policy
    dsimp only
    rw [if_pos policy]
    exact Nat.le_trans (Nat.sub_le _ _) counted

theorem keepsBounds_flush (stack : ShadowStack) : stack.KeepsBounds stack.flush :=
  keepsBounds_of rfl rfl (fun bounds => Nat.zero_lt_of_lt bounds.top_lt) fun _ _ => Nat.zero_le _

end TransferCache.ShadowStack
