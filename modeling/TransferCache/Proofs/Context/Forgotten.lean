import TransferCache.Proofs.Context.Steps

/-!
# What the counters count and the caches have forgotten

Counters only grow, while the caches they describe are emptied by flushes. `Context.forgotten` is
the difference: the call sites, the links and the frames that are counted but are neither there any
more nor accounted for by another counter. A call site is there as an allocated slot, a deferred
link as a pending one until it is counted as completed, and a frame as a live one until its pop is
counted or an overflow discards it.

Only a flush makes a context forget anything. Every other protocol leaves all three numbers as they
are.
-/

namespace TransferCache

/-- How many frames a push on a full stack discards. -/
def OverflowPolicy.discards (policy : OverflowPolicy) (capacity : Nat) : Nat :=
  match policy with
  | .wrap => 1
  | .reset => capacity

/-- Numbers of things that are counted, and that a flush has forgotten. -/
structure Forgotten where
  sites : Int
  links : Int
  frames : Int
  deriving DecidableEq, Repr

namespace Context

variable {ctx : Context}

def forgotten (ctx : Context) : Forgotten where
  sites := ctx.stats.callSites - ctx.slots.allocated
  links := ctx.stats.linksDeferred - ctx.stats.linksCompleted - ctx.links.pending
  frames :=
    ctx.stats.shadowPushes - ctx.stats.shadowHits - ctx.stats.shadowUnresolved -
      ctx.shadow.policy.discards ctx.shadow.capacity * ctx.stats.shadowOverflows - ctx.shadow.live

/-! ## Call sites and links -/

theorem forgotten_prepare (ctx : Context) (registry : Registry) (ret : GuestAddr) :
    (ctx.prepare registry ret).state.forgotten = ctx.forgotten := by
  rcases ctx.prepare_cases registry ret with
    ⟨-, -, state⟩ | ⟨-, _, block, -, -, state⟩ | ⟨-, -, -, state⟩
  · rw [state]
  · rw [state]
    unfold forgotten
    simp only [SlotArray.allocated_resolve, SlotArray.allocated_taken, Forgotten.mk.injEq,
      and_true]
    omega
  · rw [state]
    unfold forgotten
    simp only [WaitingLinks.defer, SlotArray.allocated_taken, Forgotten.mk.injEq, and_true]
    omega

/-- Links are completed and counted, if every waiter names a slot of the array. -/
theorem forgotten_completeLinks (wf : ctx.links.WellFormed) (block : Block)
    (held : (ctx.links.waiters block.guest).filter ctx.slots.holds =
      ctx.links.waiters block.guest) :
    (ctx.completeLinks block).state.forgotten = ctx.forgotten := by
  have completed := (ctx.completeLinks_eq block).2
  rw [held] at completed
  have pending : (ctx.links.waiters block.guest).length +
      (ctx.links.complete block.guest).2.pending = ctx.links.pending := by
    rw [(wf.complete block.guest).pending_eq, wf.pending_eq]
    exact wf.length_waiters block.guest
  rw [completed]
  unfold forgotten
  simp only [SlotArray.allocated_resolveAll, Forgotten.mk.injEq, and_true, true_and]
  omega

/-! ## The shadow stack -/

/-- A pushed frame is live, and so is one fewer of the older ones for each that is discarded. -/
theorem forgotten_push (wf : ctx.shadow.WellFormed) (site : CallSite) :
    (ctx.push site).state.forgotten = ctx.forgotten := by
  have live := wf.live_push site.frame
  have bounded := wf.live_le
  have overflowed : (ctx.shadow.push site.frame).2 =
      decide (ctx.shadow.live = ctx.shadow.capacity) := wf.advance_snd
  rw [state_push]
  unfold forgotten
  simp only [ShadowStack.policy_push, ShadowStack.capacity_push, live, overflowed,
    Forgotten.mk.injEq, true_and, decide_eq_true_eq]
  cases ctx.shadow.policy with
  | wrap =>
    simp only [OverflowPolicy.discards, if_true]
    split <;> split <;> omega
  | reset =>
    simp only [OverflowPolicy.discards, reduceCtorEq, if_false]
    split
    · next full =>
      rw [if_neg (by omega), Int.natCast_succ ctx.stats.shadowOverflows, Int.mul_add, Int.mul_one]
      omega
    · next space =>
      rw [if_pos (by omega)]
      simp only [Nat.add_zero]
      omega

/-- A popped frame is counted as a hit or as unresolved. -/
theorem forgotten_pop (wf : ctx.shadow.WellFormed) (actual : GuestAddr) :
    (ctx.pop actual).state.forgotten = ctx.forgotten := by
  have live := wf.live_pop
  have dropped : ∀ {frame}, ctx.shadow.frames.head? = some frame → 0 < ctx.shadow.live := by
    intro frame top
    rw [← ctx.shadow.length_frames]
    exact List.length_pos_of_mem (List.mem_of_mem_head? top)
  rcases pop_cases wf actual with
    ⟨-, -, state⟩ | ⟨frame, -, top, -, -, -, state⟩ | ⟨frame, -, top, -, -, -, state⟩
  · rw [state]
    rfl
  · have some := dropped top
    rw [state]
    unfold forgotten
    simp only [ShadowStack.policy_pop, ShadowStack.capacity_pop, live, Forgotten.mk.injEq,
      true_and]
    omega
  · have some := dropped top
    rw [state]
    unfold forgotten
    simp only [ShadowStack.policy_pop, ShadowStack.capacity_pop, live, Forgotten.mk.injEq,
      true_and]
    omega

/-! ## Jump targets -/

theorem forgotten_lookupTarget (ctx : Context) (target : GuestAddr) :
    (ctx.lookupTarget target).state.forgotten = ctx.forgotten := by
  rcases ctx.lookupTarget_cases target with ⟨_, -, -, state⟩ | ⟨-, -, state⟩
  · rw [state]
    rfl
  · rw [state]
    rfl

theorem forgotten_updateTarget (ctx : Context) (block : Block) :
    (ctx.updateTarget block).state.forgotten = ctx.forgotten := rfl

/-! ## What is there -/

variable {mark : Context}

/-- Call sites counted since no slot was allocated are the allocated slots, if none was forgotten.
-/
theorem callSites_eq_allocated (same : ctx.forgotten.sites = mark.forgotten.sites)
    (cleared : mark.slots.allocated = 0) :
    (ctx.stats.callSites - mark.stats.callSites : Int) = ctx.slots.allocated := by
  simp only [forgotten, cleared] at same
  omega

/-- Links deferred and not completed since none was pending are pending, if none was forgotten. -/
theorem links_eq_pending (same : ctx.forgotten.links = mark.forgotten.links)
    (settled : mark.links.pending = 0) :
    ((ctx.stats.linksDeferred - mark.stats.linksDeferred) -
      (ctx.stats.linksCompleted - mark.stats.linksCompleted) : Int) = ctx.links.pending := by
  simp only [forgotten, settled] at same
  omega

/-- Frames pushed and neither popped nor discarded since none was live are live, if none was
forgotten. -/
theorem live_eq_pushed (same : ctx.forgotten.frames = mark.forgotten.frames)
    (empty : mark.shadow.live = 0) {discards : Nat}
    (before : mark.shadow.policy.discards mark.shadow.capacity = discards)
    (now : ctx.shadow.policy.discards ctx.shadow.capacity = discards) :
    (ctx.shadow.live : Int) =
      (ctx.stats.shadowPushes - mark.stats.shadowPushes) -
        (ctx.stats.shadowHits - mark.stats.shadowHits) -
        (ctx.stats.shadowUnresolved - mark.stats.shadowUnresolved) -
        discards * (ctx.stats.shadowOverflows - mark.stats.shadowOverflows) := by
  simp only [forgotten, empty, before, now] at same
  rw [Int.mul_sub]
  omega

end Context

end TransferCache
