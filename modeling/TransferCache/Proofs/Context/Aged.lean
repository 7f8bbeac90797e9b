import TransferCache.Proofs.Context.Dimensions
import TransferCache.Proofs.Shadow.BoundedList

/-!
# Contexts that have been used

A context that is cleared keeps two traces of its past: the frames in the storage of its stack, and
its counts. `Context.aged` puts both into a context that has no past. No protocol takes notice: it
answers alike, logs the same events, and leaves the same context behind, aged alike. For the stack
this is because pushes and pops look at live frames only (`ShadowStack.SameFrames`), and for the
counts because protocols only add to them (`Stats.plus`).
-/

namespace TransferCache

namespace Stats

/-- The counts that go on from earlier ones. -/
def plus (earlier stats : Stats) : Stats where
  callSites := earlier.callSites + stats.callSites
  linksImmediate := earlier.linksImmediate + stats.linksImmediate
  linksDeferred := earlier.linksDeferred + stats.linksDeferred
  linksCompleted := earlier.linksCompleted + stats.linksCompleted
  shadowPushes := earlier.shadowPushes + stats.shadowPushes
  shadowOverflows := earlier.shadowOverflows + stats.shadowOverflows
  shadowFlushes := earlier.shadowFlushes + stats.shadowFlushes
  shadowHits := earlier.shadowHits + stats.shadowHits
  shadowMismatches := earlier.shadowMismatches + stats.shadowMismatches
  shadowUnresolved := earlier.shadowUnresolved + stats.shadowUnresolved
  targetHits := earlier.targetHits + stats.targetHits
  targetMisses := earlier.targetMisses + stats.targetMisses
  targetUpdates := earlier.targetUpdates + stats.targetUpdates
  targetEvictions := earlier.targetEvictions + stats.targetEvictions

theorem plus_zero (earlier : Stats) : earlier.plus {} = earlier := rfl

end Stats

namespace ShadowStack

variable {stack other : ShadowStack}

/-! ## Stacks with the same live frames -/

/-- Two stacks that differ in storage alone, and not where their live frames are. -/
structure SameFrames (stack other : ShadowStack) : Prop where
  wf : stack.WellFormed
  other_wf : other.WellFormed
  alike : stack.Alike other
  frames_eq : stack.frames = other.frames

namespace SameFrames

theorem capacity_eq (same : stack.SameFrames other) : stack.capacity = other.capacity :=
  congrArg (· - 1) same.alike.limit_eq

theorem live_eq (same : stack.SameFrames other) : stack.live = other.live := by
  rw [← length_frames, same.frames_eq, length_frames]

theorem isEmpty_eq (same : stack.SameFrames other) : stack.isEmpty = other.isEmpty :=
  congrArg (fun top => decide (top = 0)) same.alike.top_eq

theorem peek_eq (same : stack.SameFrames other) : stack.peek = other.peek := by
  rw [same.wf.peek_eq, same.frames_eq, ← same.other_wf.peek_eq]

theorem push (same : stack.SameFrames other) (frame : Frame) :
    (stack.push frame).1.SameFrames (other.push frame).1 ∧
      (stack.push frame).2 = (other.push frame).2 := by
  obtain ⟨alike, full⟩ := same.alike.push frame
  refine ⟨⟨same.wf.push frame, same.other_wf.push frame, alike, ?_⟩, full⟩
  rw [same.wf.frames_push, same.other_wf.frames_push, same.alike.policy_eq, same.capacity_eq,
    same.frames_eq]

theorem pop (same : stack.SameFrames other) : stack.pop.SameFrames other.pop := by
  refine ⟨same.wf.pop, same.other_wf.pop, same.alike.pop, ?_⟩
  rw [same.wf.frames_pop, same.other_wf.frames_pop, same.frames_eq]

theorem flush (same : stack.SameFrames other) : stack.flush.SameFrames other.flush :=
  ⟨same.wf.flush, same.other_wf.flush, (same.alike.step .flush).1,
    (frames_flush stack).trans (frames_flush other).symm⟩

end SameFrames

/-- A flushed stack has no live frame, like the stack as it was created. -/
theorem WellFormed.flush_sameFrames_blank (wf : stack.WellFormed) :
    stack.flush.SameFrames stack.blank where
  wf := wf.flush
  other_wf := wellFormed_ofCapacity wf.capacity_pos stack.policy
  alike := ⟨rfl, rfl, rfl, wf.limit_eq.trans Array.size_replicate.symm⟩
  frames_eq := (frames_flush stack).trans (frames_ofCapacity _ _).symm

end ShadowStack

namespace Context

variable {stack : ShadowStack} {ctx : Context}

/-! ## Protocols take no notice -/

/-- The context with a used stack in place of its own, and counts that go on from earlier ones. -/
def aged (stack : ShadowStack) (earlier : Stats) (ctx : Context) : Context :=
  { ctx with shadow := stack, stats := earlier.plus ctx.stats }

theorem prepare_aged (stack : ShadowStack) (earlier : Stats) (ctx : Context) (registry : Registry)
    (ret : GuestAddr) :
    (ctx.aged stack earlier).prepare registry ret =
      (ctx.prepare registry ret).within (aged stack earlier) := by
  unfold prepare
  rw [show (ctx.aged stack earlier).slots = ctx.slots from rfl]
  cases ctx.slots.alloc with
  | error fault => rfl
  | ok handed => cases registry.lookup ret <;> rfl

theorem completeLinks_aged (stack : ShadowStack) (earlier : Stats) (ctx : Context)
    (block : Block) :
    (ctx.aged stack earlier).completeLinks block =
      (ctx.completeLinks block).within (aged stack earlier) := by
  unfold completeLinks Outcome.within aged Stats.plus
  simp only [Nat.add_assoc]

theorem lookupTarget_aged (stack : ShadowStack) (earlier : Stats) (ctx : Context)
    (target : GuestAddr) :
    (ctx.aged stack earlier).lookupTarget target =
      (ctx.lookupTarget target).within (aged stack earlier) := by
  unfold lookupTarget
  rw [show (ctx.aged stack earlier).targets = ctx.targets from rfl]
  cases ctx.targets.lookup target <;> rfl

theorem updateTarget_aged (stack : ShadowStack) (earlier : Stats) (ctx : Context) (block : Block) :
    (ctx.aged stack earlier).updateTarget block =
      (ctx.updateTarget block).within (aged stack earlier) := by
  unfold updateTarget Outcome.within aged Stats.plus traced
  simp only [Nat.add_assoc]

theorem push_aged (same : stack.SameFrames ctx.shadow) (earlier : Stats) (site : CallSite) :
    (ctx.aged stack earlier).push site =
      (ctx.push site).within (aged (stack.push site.frame).1 earlier) := by
  have full := (same.push site.frame).2
  have discards : ((ctx.aged stack earlier).shadow.push ⟨site.ret, site.slot⟩).2 =
      (ctx.shadow.push ⟨site.ret, site.slot⟩).2 := full
  have capacity : (stack.push site.frame).1.capacity = (ctx.shadow.push site.frame).1.capacity :=
    (same.push site.frame).1.capacity_eq
  have policy : (stack.push site.frame).1.policy = (ctx.shadow.push site.frame).1.policy :=
    (same.push site.frame).1.alike.policy_eq
  unfold push
  simp only [discards]
  split
  · refine congrArg (Outcome.mk () _ [·]) ?_
    exact congrArg₂ Event.stackOverflowed capacity policy
  · rfl

theorem pop_aged (same : stack.SameFrames ctx.shadow) (earlier : Stats) (actual : GuestAddr) :
    ∃ after, after.SameFrames (ctx.pop actual).state.shadow ∧
      (ctx.aged stack earlier).pop actual = (ctx.pop actual).within (aged after earlier) := by
  have peek : (ctx.aged stack earlier).shadow.peek = ctx.shadow.peek := same.peek_eq
  have empty : (ctx.aged stack earlier).shadow.isEmpty = ctx.shadow.isEmpty := same.isEmpty_eq
  have slots : (ctx.aged stack earlier).slots = ctx.slots := rfl
  unfold pop
  simp only [peek, empty, slots]
  split
  · exact ⟨stack, same, rfl⟩
  · split
    · exact ⟨stack.pop, same.pop, rfl⟩
    · exact ⟨stack.pop, same.pop, rfl⟩

theorem flushStack_aged (stack : ShadowStack) (earlier : Stats) (ctx : Context) :
    (ctx.aged stack earlier).flushStack = ctx.flushStack.within (aged stack.flush earlier) := rfl

theorem reset_aged (stack : ShadowStack) (earlier : Stats) (ctx : Context) :
    (ctx.aged stack earlier).reset = ctx.reset.within (aged stack.flush earlier) := rfl

/-- Clearing a context leaves nothing of its past but the storage of its stack and its counts. -/
theorem state_reset (ctx : Context) :
    ctx.reset.state = ctx.blank.aged ctx.shadow.flush ctx.stats := by
  unfold aged
  rw [show ctx.blank.stats = {} from rfl, Stats.plus_zero]
  rfl

end Context

end TransferCache
