import TransferCache.Proofs.Context.Forgotten
import TransferCache.Proofs.Engine.Protocols
import TransferCache.Proofs.Engine.Provenance

/-!
# What the counters add up to

The counters of an engine are bumped in many places, and its caches change in as many. Three laws
hold between them whatever an engine does: every call site was linked at once or deferred, no more
blocks were displaced than stored, and every block that was stored answers a lookup that missed, as
does the update that is pending. The others hold from one flush to the next: what was counted since
a flush and is not counted as gone is what the caches hold, because only a flush makes them forget
what is counted (`Context.forgotten`).

* `Sound.forgotten_step`: operations that flush nothing forget nothing.
* `Reaches.tallied`, `Sound.answered_step`: the laws that always hold.
* `run_conserves`: all of them for an engine just built.
-/

namespace TransferCache

/-- An update is pending for, or has answered, so many of the lookups that missed. -/
def Lookups.Answered (lookups : Lookups) : Prop :=
  lookups.updates + (if lookups.updatePending then 1 else 0) ≤ lookups.misses

namespace Context

/-- Every call site was linked at once or deferred, and a block that was stored displaced every one
that was displaced. -/
structure Tallied (ctx : Context) : Prop where
  callSites_eq : ctx.stats.callSites = ctx.stats.linksImmediate + ctx.stats.linksDeferred
  evictions_le : ctx.stats.targetEvictions ≤ ctx.stats.targetUpdates

/-- Protocols keep the tallies. -/
theorem Reaches.tallied {earlier later : Context} (reached : earlier.Reaches later)
    (tallied : earlier.Tallied) : later.Tallied := by
  induction reached with
  | refl => exact tallied
  | flushStack _ ih => exact ⟨ih.callSites_eq, ih.evictions_le⟩
  | reset _ ih => exact ⟨ih.callSites_eq, ih.evictions_le⟩
  | push site _ ih =>
    rw [state_push]
    exact ⟨ih.callSites_eq, ih.evictions_le⟩
  | @pop ctx actual _ ih =>
    obtain ⟨_, _, _, _, -, state⟩ := ctx.state_pop actual
    rw [state]
    exact ⟨ih.callSites_eq, ih.evictions_le⟩
  | @completeLinks ctx block _ ih =>
    rw [(ctx.completeLinks_eq block).2]
    exact ⟨ih.callSites_eq, ih.evictions_le⟩
  | @lookupTarget ctx target _ ih =>
    rcases ctx.lookupTarget_cases target with ⟨_, -, -, state⟩ | ⟨-, -, state⟩
    · rw [state]
      exact ⟨ih.callSites_eq, ih.evictions_le⟩
    · rw [state]
      exact ⟨ih.callSites_eq, ih.evictions_le⟩
  | @updateTarget ctx block _ ih =>
    have displaced : (ctx.updateTarget block).state.stats.targetEvictions ≤
        ctx.stats.targetEvictions + 1 := by
      change ctx.stats.targetEvictions + (if _ then 1 else 0) ≤ ctx.stats.targetEvictions + 1
      split <;> omega
    exact ⟨ih.callSites_eq, Nat.le_trans displaced (Nat.succ_le_succ ih.evictions_le)⟩
  | @prepare ctx registry ret _ ih =>
    have before := ih.callSites_eq
    rcases ctx.prepare_cases registry ret with
      ⟨-, -, state⟩ | ⟨-, _, _, -, -, state⟩ | ⟨-, -, -, state⟩
    · rw [state]
      exact ih
    · rw [state]
      refine ⟨?_, ih.evictions_le⟩
      change ctx.stats.callSites + 1 = ctx.stats.linksImmediate + 1 + ctx.stats.linksDeferred
      omega
    · rw [state]
      refine ⟨?_, ih.evictions_le⟩
      change ctx.stats.callSites + 1 = ctx.stats.linksImmediate + (ctx.stats.linksDeferred + 1)
      omega

end Context

namespace Engine

variable {κ : Type} {compile : Compile κ} {engine : Engine κ} {recent : List Block}

/-! ## Lookups that missed -/

/-- An update answers a lookup that missed: the one of its jump, or an earlier one if the update is
pending since then. -/
theorem Sound.answered_step (sound : engine.Sound recent) (compile : Compile κ) (action : Action)
    (answered : engine.ctx.lookups.Answered) :
    (Engine.step compile engine action).state.ctx.lookups.Answered := by
  have kept : (∀ target, action ≠ .jump target) → action ≠ .flushCode →
      (Engine.step compile engine action).state.ctx.lookups.Answered := by
    intro still going
    rw [lookups_step compile engine still going]
    exact answered
  cases action with
  | register | resolve | call | ret | flushStack => exact kept nofun nofun
  | flushCode => exact Nat.le_trans (Nat.le_add_right _ _) answered
  | jump target =>
    change (Engine.jump compile engine target).state.ctx.lookups.Answered
    have pending : engine.ctx.lookups.updatePending = engine.ctx.updatePending := rfl
    unfold Lookups.Answered at answered ⊢
    rcases sound.jump_outcomes compile target with
      ⟨_, -, -, -, state⟩ | ⟨_, _, -, raised, -, -, state⟩ | ⟨_, -, -, state⟩ | ⟨_, -, -, -, state⟩
    · rw [state]
      exact answered
    · rw [pending, raised] at answered
      rw [state]
      exact answered
    · rw [state]
      exact Nat.succ_le_succ (Nat.le_trans (Nat.le_add_right _ _) answered)
    · rw [state]
      exact Nat.succ_le_succ (Nat.le_trans (Nat.le_add_right _ _) answered)

theorem Sound.answered_run (sound : engine.Sound recent) (compile : Compile κ)
    (actions : List Action) (answered : engine.ctx.lookups.Answered) :
    (Engine.run compile engine actions).state.ctx.lookups.Answered := by
  induction actions generalizing engine recent with
  | nil => exact answered
  | cons action actions ih =>
    exact ih (sound.step action) (sound.answered_step compile action answered)

/-! ## Operations that forget nothing -/

theorem Sound.forgotten_register (sound : engine.Sound recent) (block : Block) :
    (engine.register block).state.ctx.forgotten = engine.ctx.forgotten :=
  Context.forgotten_completeLinks sound.linking.links_wf block
    (sound.linking.filter_waiters block.guest)

theorem Sound.forgotten_resolve (sound : engine.Sound recent) (compile : Compile κ)
    (guest : GuestAddr) :
    (Engine.resolve compile engine guest).state.ctx.forgotten = engine.ctx.forgotten := by
  rcases resolve_cases compile engine guest with
    ⟨_, -, -, state⟩ | ⟨-, -, -, state⟩ | ⟨host, -, -, -, state⟩
  · rw [state]
  · rw [state]
  · rw [state]
    exact (sound.withCompiler _).forgotten_register ⟨guest, host⟩

theorem Sound.forgotten_call (sound : engine.Sound recent) (site ret : GuestAddr) :
    (engine.call site ret).state.ctx.forgotten = engine.ctx.forgotten := by
  have prepared := engine.ctx.forgotten_prepare engine.registry ret
  rcases engine.call_cases site ret with
    ⟨known, -, called⟩ | ⟨_, -, -, -, state⟩ | ⟨fresh, -, -, -, state⟩
  · rw [called]
    exact Context.forgotten_push sound.shadow_wf known
  · rw [state]
    exact prepared
  · have wf : (engine.ctx.prepare engine.registry ret).state.shadow.WellFormed := by
      rw [engine.ctx.shadow_prepare engine.registry ret]
      exact sound.shadow_wf
    rw [state]
    exact (Context.forgotten_push wf fresh).trans prepared

theorem Sound.forgotten_ret (sound : engine.Sound recent) (compile : Compile κ)
    (actual : GuestAddr) :
    (Engine.ret compile engine actual).state.ctx.forgotten = engine.ctx.forgotten := by
  have popped := Context.forgotten_pop sound.shadow_wf actual
  rcases ret_cases compile engine actual with ⟨_, -, -, state⟩ | ⟨-, -, state⟩
  · rw [state]
    exact popped
  · rw [state]
    exact ((sound.pop actual).forgotten_resolve compile actual).trans popped

theorem Sound.forgotten_jump (sound : engine.Sound recent) (compile : Compile κ)
    (target : GuestAddr) :
    (Engine.jump compile engine target).state.ctx.forgotten = engine.ctx.forgotten := by
  have looked := engine.ctx.forgotten_lookupTarget target
  have slow := ((sound.lookup target).forgotten_resolve compile target).trans looked
  rcases jump_cases compile engine target with
    ⟨-, -, state⟩ | ⟨-, _, rfl, ⟨_, -, -, state⟩ | ⟨block, -, -, state⟩⟩
  · rw [state]
    exact looked
  · rw [state]
    exact slow
  · rw [state]
    exact (Context.forgotten_updateTarget _ block).trans slow

/-- Operations that do not empty the stack forget nothing. -/
theorem Sound.forgotten_step (sound : engine.Sound recent) (compile : Compile κ) {action : Action}
    (keeps : ¬action.EmptiesStack) :
    (Engine.step compile engine action).state.ctx.forgotten = engine.ctx.forgotten := by
  cases action with
  | register block => exact sound.forgotten_register block
  | resolve guest => exact sound.forgotten_resolve compile guest
  | call site ret => exact sound.forgotten_call site ret
  | ret actual => exact sound.forgotten_ret compile actual
  | jump target => exact sound.forgotten_jump compile target
  | flushCode => exact absurd trivial keeps
  | flushStack => exact absurd trivial keeps

/-- Operations that do not flush the code forget no call sites and no links. -/
theorem Sound.forgotten_links_step (sound : engine.Sound recent) (compile : Compile κ)
    {action : Action} (going : action ≠ .flushCode) :
    (Engine.step compile engine action).state.ctx.forgotten.sites = engine.ctx.forgotten.sites ∧
      (Engine.step compile engine action).state.ctx.forgotten.links =
        engine.ctx.forgotten.links := by
  by_cases empties : action.EmptiesStack
  · cases action with
    | flushCode => exact absurd rfl going
    | flushStack => exact ⟨rfl, rfl⟩
    | register | resolve | call | ret | jump => exact absurd empties not_false
  · rw [sound.forgotten_step compile empties]
    exact ⟨rfl, rfl⟩

theorem Sound.forgotten_run (sound : engine.Sound recent) (compile : Compile κ)
    {actions : List Action} (keep : ∀ action ∈ actions, ¬action.EmptiesStack) :
    (Engine.run compile engine actions).state.ctx.forgotten = engine.ctx.forgotten := by
  induction actions generalizing engine recent with
  | nil => rfl
  | cons action actions ih =>
    have next : (Engine.step compile engine action).state.Sound _ := sound.step action
    have rest := ih next fun other member => keep other (List.mem_cons_of_mem action member)
    exact rest.trans (sound.forgotten_step compile (keep action List.mem_cons_self))

theorem Sound.forgotten_links_run (sound : engine.Sound recent) (compile : Compile κ)
    {actions : List Action} (going : .flushCode ∉ actions) :
    (Engine.run compile engine actions).state.ctx.forgotten.sites = engine.ctx.forgotten.sites ∧
      (Engine.run compile engine actions).state.ctx.forgotten.links =
        engine.ctx.forgotten.links := by
  induction actions generalizing engine recent with
  | nil => exact ⟨rfl, rfl⟩
  | cons action actions ih =>
    have notThis : action ≠ .flushCode := fun same => going (same ▸ List.mem_cons_self)
    have next : (Engine.step compile engine action).state.Sound _ := sound.step action
    obtain ⟨sites, links⟩ := sound.forgotten_links_step compile notThis
    obtain ⟨laterSites, laterLinks⟩ := ih next
      fun member => going (List.mem_cons_of_mem action member)
    exact ⟨laterSites.trans sites, laterLinks.trans links⟩

/-! ## Engines just built or flushed -/

/-- No slot is allocated and no link pending at the start of a run and after a flush of the code. -/
theorem cleared_of_getLast? {config : Config} {compiler : κ} {made : Outcome (Engine κ) Unit}
    (created : create config compiler = .ok made) (compile : Compile κ) {actions : List Action}
    (flushed : ∀ action ∈ actions.getLast?, action = .flushCode) :
    (run compile made.state actions).state.ctx.slots.allocated = 0 ∧
      (run compile made.state actions).state.ctx.links.pending = 0 := by
  induction actions using List.reverseRecOn with
  | nil =>
    rw [show (run compile made.state []).state = made.state from rfl, (of_create created).1]
    exact ⟨rfl, rfl⟩
  | append_singleton actions action =>
    obtain rfl : action = .flushCode := flushed action (by simp)
    rw [state_run_concat]
    exact ⟨rfl, rfl⟩

/-- No frame is live at the start of a run and after a flush. -/
theorem emptied_of_getLast? {config : Config} {compiler : κ} {made : Outcome (Engine κ) Unit}
    (created : create config compiler = .ok made) (compile : Compile κ) {actions : List Action}
    (flushed : ∀ action ∈ actions.getLast?, action.EmptiesStack) :
    (run compile made.state actions).state.ctx.shadow.live = 0 := by
  rw [← ShadowStack.length_frames, List.length_eq_zero_iff]
  induction actions using List.reverseRecOn with
  | nil =>
    rw [show (run compile made.state []).state = made.state from rfl, (of_create created).1]
    exact ShadowStack.frames_ofCapacity _ _
  | append_singleton actions action =>
    have empties : action.EmptiesStack := flushed action (by simp)
    rw [state_run_concat]
    cases action with
    | flushCode => exact ShadowStack.frames_flush _
    | flushStack => exact ShadowStack.frames_flush _
    | register | resolve | call | ret | jump => exact absurd empties not_false

/-- However an engine is used after it was built: every call site was linked at once or deferred, no
more blocks were displaced than stored, and stored blocks together with a pending update answer no
more lookups than missed. Counting only what was counted since the start or a flush of the code, the
call sites are the allocated slots and the compiled call sites, and the deferred links that were not
completed are pending. Counting only what was counted since the stack was last empty for lack of any
push or by a flush, the live frames are those pushed but neither popped nor discarded, of which an
overflow discards one in a ring and all there is room for otherwise. -/
theorem run_conserves {config : Config} {compiler : κ} {made : Outcome (Engine κ) Unit}
    (created : create config compiler = .ok made) (compile : Compile κ)
    (earlier later : List Action) :
    let engine := (run compile made.state (earlier ++ later)).state
    let before := (run compile made.state earlier).state.ctx.stats
    let after := engine.ctx.stats
    after.callSites = after.linksImmediate + after.linksDeferred ∧
    after.targetEvictions ≤ after.targetUpdates ∧
    after.targetUpdates + (if engine.ctx.updatePending then 1 else 0) ≤ after.targetMisses ∧
    ((∀ action ∈ earlier.getLast?, action = .flushCode) → .flushCode ∉ later →
      (after.callSites - before.callSites : Int) = engine.ctx.slots.allocated ∧
      engine.ctx.slots.allocated = engine.callSites.size ∧
      ((after.linksDeferred - before.linksDeferred) -
        (after.linksCompleted - before.linksCompleted) : Int) = engine.ctx.links.pending) ∧
    ((∀ action ∈ earlier.getLast?, action.EmptiesStack) →
      (∀ action ∈ later, ¬action.EmptiesStack) →
      (engine.ctx.shadow.live : Int) =
        (after.shadowPushes - before.shadowPushes) - (after.shadowHits - before.shadowHits) -
          (after.shadowUnresolved - before.shadowUnresolved) -
          config.overflow.discards config.stackSize.toNat *
            (after.shadowOverflows - before.shadowOverflows)) := by
  intro engine before after
  have new := sound_create created
  have start := (of_create created).1
  have reached := reaches_run compile made.state (earlier ++ later)
  have tallied : engine.ctx.Tallied := by
    refine reached.tallied ?_
    rw [start]
    exact ⟨rfl, Nat.le_refl _⟩
  have answered : engine.ctx.lookups.Answered := by
    refine new.answered_run compile (earlier ++ later) ?_
    rw [start]
    exact Nat.le_refl _
  have mark : (run compile made.state earlier).state.Sound _ := new.run earlier
  have sound : engine.Sound _ := new.run (earlier ++ later)
  have ends : engine = (run compile (run compile made.state earlier).state later).state :=
    state_run_append compile made.state earlier later
  refine ⟨tallied.callSites_eq, tallied.evictions_le, answered, ?_, ?_⟩
  · intro flushed going
    obtain ⟨unallocated, settled⟩ := cleared_of_getLast? created compile flushed
    obtain ⟨sites, links⟩ := mark.forgotten_links_run compile going
    rw [← ends] at sites links
    have compiled : engine.compiled.length = engine.callSites.size := List.length_map _
    exact ⟨Context.callSites_eq_allocated sites unallocated,
      sound.linking.length_sites.symm.trans compiled, Context.links_eq_pending links settled⟩
  · intro flushed keep
    have empty := emptied_of_getLast? created compile flushed
    have frames := congrArg Forgotten.frames (mark.forgotten_run compile keep)
    have room : ∀ {ctx}, made.state.ctx.Reaches ctx →
        ctx.shadow.policy.discards ctx.shadow.capacity =
          config.overflow.discards config.stackSize.toNat := by
      intro ctx reached
      rw [reached.policy_eq, reached.capacity_eq, start]
      exact congrArg _ (ShadowStack.capacity_ofCapacity _ _)
    rw [← ends] at frames
    exact Context.live_eq_pushed frames empty (room (reaches_run compile made.state earlier))
      (room reached)

/-- A block is called from and jumped to, and the code is flushed. -/
def flushing : List Action := [.call ⟨1⟩ ⟨16⟩, .jump ⟨16⟩, .flushCode]

/-- The stack has room for one frame only, and there is no slot for a second call site. -/
def overflowing : List Action :=
  [.call ⟨1⟩ ⟨16⟩, .call ⟨2⟩ ⟨32⟩, .call ⟨1⟩ ⟨16⟩, .jump ⟨16⟩, .jump ⟨32⟩]

/-- Of the two frames that were pushed after the flush an overflow discarded one, and of the two
call sites that were linked one is still compiled. -/
theorem run_conserves_overflowing :
    create .smallest () = .ok ⟨(), smallest, [.contextCreated .smallest]⟩ ∧
      (run .identical smallest flushing).state.ctx.stats.shadowPushes = 1 ∧
      (run .identical smallest (flushing ++ overflowing)).state.ctx.stats.shadowPushes = 3 ∧
      (run .identical smallest (flushing ++ overflowing)).state.ctx.stats.callSites = 2 ∧
      (run .identical smallest (flushing ++ overflowing)).state.ctx.stats.shadowOverflows = 1 ∧
      ((run .identical smallest (flushing ++ overflowing)).state.ctx.shadow.live : Int) =
        (3 - 1) - 0 - 0 - 1 * (1 - 0) ∧
      ((2 - 1 : Nat) : Int) =
        (run .identical smallest (flushing ++ overflowing)).state.ctx.slots.allocated := by
  obtain ⟨-, -, -, sites, frames⟩ :=
    run_conserves create_smallest .identical flushing overflowing
  have flushed : ∀ action ∈ flushing.getLast?, action = .flushCode := by
    rintro action ⟨⟩
    rfl
  refine ⟨create_smallest, rfl, rfl, rfl, rfl, frames ?_ ?_, (sites flushed ?_).1⟩
  · intro action last
    rw [flushed action last]
    trivial
  · simp [overflowing, Action.EmptiesStack]
  · simp [overflowing]

end Engine

end TransferCache
