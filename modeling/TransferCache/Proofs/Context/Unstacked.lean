import Mathlib.Data.List.Infix
import TransferCache.Proofs.Context.Uncounted

/-!
# Contexts that differ in their stacks

Nothing but pushes, pops and flushes looks at the shadow stack of a context, so two contexts that
agree on everything else (`Context.unstacked`) go on agreeing whatever their stacks do. The stacks
themselves need not be alike: a ring `Covers` a stack with no more room if the frames of that stack
are the newest frames of the ring. A mismatch of the one may be a pop of the other, but a pop of the
smaller stack is always a pop of the ring.

* `Covers.push`: covering is kept by a push, whatever the smaller stack does when it is full.
* `Context.covers_pop`: so it is by a return.
* `Context.hit_of_covers`: what the smaller stack predicts the ring predicts.
-/

namespace TransferCache

namespace ShadowStack

variable {narrow wide : ShadowStack} {frame : Frame}

/-- The wide stack is a ring, has at least the room of the narrow one, and holds the frames of the
narrow one on top of any others. -/
structure Covers (wide narrow : ShadowStack) : Prop where
  wide_wf : wide.WellFormed
  narrow_wf : narrow.WellFormed
  wraps : wide.policy = .wrap
  capacity_le : narrow.capacity ≤ wide.capacity
  frames_prefix : narrow.frames <+: wide.frames

theorem covers_ofCapacity {room larger : Nat} (positive : 0 < room) (enough : room ≤ larger)
    (policy : OverflowPolicy) : (ofCapacity larger .wrap).Covers (ofCapacity room policy) where
  wide_wf := wellFormed_ofCapacity (Nat.lt_of_lt_of_le positive enough) .wrap
  narrow_wf := wellFormed_ofCapacity positive policy
  wraps := rfl
  capacity_le := by
    rw [capacity_ofCapacity, capacity_ofCapacity]
    exact enough
  frames_prefix := by
    rw [frames_ofCapacity]
    exact List.nil_prefix

theorem Covers.flush (covers : wide.Covers narrow) : wide.flush.Covers narrow.flush where
  wide_wf := covers.wide_wf.flush
  narrow_wf := covers.narrow_wf.flush
  wraps := covers.wraps
  capacity_le := covers.capacity_le
  frames_prefix := by
    rw [frames_flush]
    exact List.nil_prefix

/-- The ring forgets a frame only when it holds more than the narrow stack has room for. -/
theorem Covers.push (covers : wide.Covers narrow) (frame : Frame) :
    (wide.push frame).1.Covers (narrow.push frame).1 where
  wide_wf := covers.wide_wf.push frame
  narrow_wf := covers.narrow_wf.push frame
  wraps := covers.wraps
  capacity_le := by
    rw [capacity_push, capacity_push]
    exact covers.capacity_le
  frames_prefix := by
    have kept : (narrow.push frame).1.frames <+: frame :: narrow.frames := by
      rw [covers.narrow_wf.frames_push]
      exact OverflowPolicy.pushed_prefix
    have short : (narrow.push frame).1.frames.length ≤ wide.capacity := by
      rw [covers.narrow_wf.frames_push]
      exact Nat.le_trans (OverflowPolicy.length_pushed_le covers.narrow_wf.capacity_pos)
        covers.capacity_le
    have below : frame :: narrow.frames <+: frame :: wide.frames :=
      (List.prefix_cons_inj frame).2 covers.frames_prefix
    rw [covers.wide_wf.frames_push, covers.wraps]
    exact List.prefix_take_iff.2 ⟨kept.trans below, short⟩

theorem Covers.pop (covers : wide.Covers narrow) : wide.pop.Covers narrow.pop where
  wide_wf := covers.wide_wf.pop
  narrow_wf := covers.narrow_wf.pop
  wraps := (policy_pop wide).trans covers.wraps
  capacity_le := by
    rw [capacity_pop, capacity_pop]
    exact covers.capacity_le
  frames_prefix := by
    rw [covers.wide_wf.frames_pop, covers.narrow_wf.frames_pop, ← List.drop_one, ← List.drop_one]
    exact covers.frames_prefix.drop 1

/-- A stack without frames stays covered when the ring alone is popped. -/
theorem Covers.pop_wide (covers : wide.Covers narrow) (bare : narrow.frames = []) :
    wide.pop.Covers narrow where
  wide_wf := covers.wide_wf.pop
  narrow_wf := covers.narrow_wf
  wraps := (policy_pop wide).trans covers.wraps
  capacity_le := by
    rw [capacity_pop]
    exact covers.capacity_le
  frames_prefix := by
    rw [bare]
    exact List.nil_prefix

/-- The newest frame of a covered stack is the newest frame of the ring. -/
theorem Covers.head?_eq (covers : wide.Covers narrow) (top : narrow.frames.head? = some frame) :
    wide.frames.head? = some frame := by
  obtain ⟨older, wider⟩ := covers.frames_prefix
  rw [← wider, List.head?_append, top]
  rfl

end ShadowStack

namespace Context

variable {narrow wide : Context}

/-! ## Contexts without their stacks -/

/-- The context with a stack that has no room, and without the counts of pushes and pops. -/
def unstacked (ctx : Context) : Context :=
  { ctx.uncounted with
    shadow := .ofCapacity 0 .wrap
    stats := { ctx.uncounted.stats with shadowOverflows := 0 } }

@[simp] theorem slots_unstacked (ctx : Context) : ctx.unstacked.slots = ctx.slots := rfl

@[simp] theorem targets_unstacked (ctx : Context) : ctx.unstacked.targets = ctx.targets := rfl

theorem prepare_unstacked (ctx : Context) (registry : Registry) (ret : GuestAddr) :
    ctx.unstacked.prepare registry ret = (ctx.prepare registry ret).within unstacked := by
  unfold prepare
  rw [slots_unstacked]
  cases ctx.slots.alloc with
  | error fault => rfl
  | ok handed => cases registry.lookup ret <;> rfl

theorem lookupTarget_unstacked (ctx : Context) (target : GuestAddr) :
    ctx.unstacked.lookupTarget target = (ctx.lookupTarget target).within unstacked := by
  unfold lookupTarget
  rw [targets_unstacked]
  cases ctx.targets.lookup target <;> rfl

theorem completeLinks_unstacked (ctx : Context) (block : Block) :
    ctx.unstacked.completeLinks block = (ctx.completeLinks block).within unstacked := rfl

theorem updateTarget_unstacked (ctx : Context) (block : Block) :
    ctx.unstacked.updateTarget block = (ctx.updateTarget block).within unstacked := rfl

@[simp] theorem unstacked_push (ctx : Context) (site : CallSite) :
    (ctx.push site).state.unstacked = ctx.unstacked := by
  rw [state_push]
  rfl

@[simp] theorem unstacked_pop (ctx : Context) (actual : GuestAddr) :
    (ctx.pop actual).state.unstacked = ctx.unstacked := by
  obtain ⟨_, _, _, _, -, state⟩ := ctx.state_pop actual
  rw [state]
  rfl

/-! ## Pops -/

/-- What a return is predicted to reach with the covered stack it is predicted to reach with the
ring. -/
theorem hit_of_covers (slots : narrow.slots = wide.slots)
    (covers : wide.shadow.Covers narrow.shadow) {actual : GuestAddr} {host : HostAddr}
    (hit : (narrow.pop actual).value = .hit host) : (wide.pop actual).value = .hit host := by
  obtain ⟨filled, frame, top, matched, held⟩ := (pop_hit_iff covers.narrow_wf actual host).1 hit
  rw [slots] at held
  exact (pop_hit_iff covers.wide_wf actual host).2
    ⟨filled, frame, covers.head?_eq top, matched, held⟩

/-- A return leaves the ring covering the stack. -/
theorem covers_pop (covers : wide.shadow.Covers narrow.shadow) (actual : GuestAddr) :
    (wide.pop actual).state.shadow.Covers (narrow.pop actual).state.shadow := by
  rw [shadow_pop covers.wide_wf, shadow_pop covers.narrow_wf]
  by_cases met : narrow.shadow.frames.head?.map Frame.expected = some actual
  · obtain ⟨frame, top, matched⟩ := Option.map_eq_some_iff.1 met
    have meets : wide.shadow.frames.head?.map Frame.expected = some actual := by
      rw [covers.head?_eq top, Option.map_some, matched]
    rw [if_pos met, if_pos meets]
    exact covers.pop
  · rw [if_neg met]
    split
    · next meets =>
      -- A frame on the narrow stack would be the one that the return wants.
      refine covers.pop_wide (List.head?_eq_none_iff.1 (Option.eq_none_iff_forall_ne_some.2 ?_))
      intro newest here
      rw [covers.head?_eq here] at meets
      rw [here] at met
      exact met meets
    · exact covers

end Context

end TransferCache
