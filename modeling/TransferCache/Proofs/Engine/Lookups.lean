import TransferCache.Proofs.Engine.Sound

/-!
# Jump targets are the business of jumps

The cache of jump targets, the pending update and the counts of lookups are one part of a context
(`Context.lookups`). Calls, returns, registrations and the slow path leave it as it is; a jump reads
it and changes it in one of four ways, and a reset clears it.

* `lookups_step`: every other operation leaves the part alone.
* `Sound.jump_outcomes`: everything that a jump can do.
-/

namespace TransferCache

/-- The part of a context that serves indirect jumps. -/
structure Lookups where
  targets : TargetCache
  updatePending : Bool
  hits : Nat
  misses : Nat
  updates : Nat
  evictions : Nat
  deriving DecidableEq, Repr

namespace Lookups

/-- After a lookup that hits. -/
def hit (lookups : Lookups) : Lookups := { lookups with hits := lookups.hits + 1 }

/-- After a lookup that misses. -/
def miss (lookups : Lookups) : Lookups :=
  { lookups with updatePending := true, misses := lookups.misses + 1 }

/-- After an update. -/
def update (lookups : Lookups) (block : Block) : Lookups :=
  { lookups with
    targets := lookups.targets.update block
    updatePending := false
    updates := lookups.updates + 1
    evictions :=
      lookups.evictions + if (lookups.targets.displacedBy block).isSome then 1 else 0 }

end Lookups

namespace Context

def lookups (ctx : Context) : Lookups where
  targets := ctx.targets
  updatePending := ctx.updatePending
  hits := ctx.stats.targetHits
  misses := ctx.stats.targetMisses
  updates := ctx.stats.targetUpdates
  evictions := ctx.stats.targetEvictions

@[simp] theorem lookups_push (ctx : Context) (site : CallSite) :
    (ctx.push site).state.lookups = ctx.lookups := by
  rw [state_push]
  rfl

@[simp] theorem lookups_pop (ctx : Context) (actual : GuestAddr) :
    (ctx.pop actual).state.lookups = ctx.lookups := by
  obtain ⟨_, _, _, _, -, state⟩ := ctx.state_pop actual
  rw [state]
  rfl

@[simp] theorem lookups_prepare (ctx : Context) (registry : Registry) (ret : GuestAddr) :
    (ctx.prepare registry ret).state.lookups = ctx.lookups := by
  rcases ctx.prepare_cases registry ret with
    ⟨-, -, state⟩ | ⟨-, _, _, -, -, state⟩ | ⟨-, -, -, state⟩
  · rw [state]
  · rw [state]
    rfl
  · rw [state]
    rfl

end Context

namespace Engine

variable {κ : Type} {engine : Engine κ} {recent : List Block}

/-! ## Operations without a lookup -/

theorem lookups_resolve (compile : Compile κ) (engine : Engine κ) (guest : GuestAddr) :
    (resolve compile engine guest).state.ctx.lookups = engine.ctx.lookups := by
  rcases resolve_cases compile engine guest with
    ⟨_, -, -, state⟩ | ⟨-, -, -, state⟩ | ⟨_, -, -, -, state⟩
  · rw [state]
  · rw [state]
  · rw [state]
    rfl

theorem lookups_call (engine : Engine κ) (site ret : GuestAddr) :
    (engine.call site ret).state.ctx.lookups = engine.ctx.lookups := by
  have prepared := engine.ctx.lookups_prepare engine.registry ret
  rcases engine.call_cases site ret with
    ⟨known, -, called⟩ | ⟨_, -, -, -, state⟩ | ⟨fresh, -, -, -, state⟩
  · rw [called]
    exact engine.ctx.lookups_push known
  · rw [state]
    exact prepared
  · rw [state]
    exact (Context.lookups_push _ fresh).trans prepared

theorem lookups_ret (compile : Compile κ) (engine : Engine κ) (actual : GuestAddr) :
    (ret compile engine actual).state.ctx.lookups = engine.ctx.lookups := by
  have popped := engine.ctx.lookups_pop actual
  rcases ret_cases compile engine actual with ⟨_, -, -, state⟩ | ⟨-, -, state⟩
  · rw [state]
    exact popped
  · rw [state]
    exact (lookups_resolve compile _ actual).trans popped

/-- Only a jump and a flush of the code change what serves jumps. -/
theorem lookups_step (compile : Compile κ) (engine : Engine κ) {action : Action}
    (still : ∀ target, action ≠ .jump target) (going : action ≠ .flushCode) :
    (step compile engine action).state.ctx.lookups = engine.ctx.lookups := by
  cases action with
  | register block => rfl
  | resolve guest => exact lookups_resolve compile engine guest
  | call site ret => exact lookups_call engine site ret
  | ret actual => exact lookups_ret compile engine actual
  | jump target => exact absurd rfl (still target)
  | flushCode => exact absurd rfl going
  | flushStack => rfl

/-! ## Jumps -/

/-- A cached target has a block. -/
theorem Sound.exists_block_of_lookup (sound : engine.Sound recent) {target : GuestAddr}
    {host : HostAddr} (cached : engine.ctx.targets.lookup target = some host) :
    ∃ block, engine.registry.lookup target = some block :=
  Option.ne_none_iff_exists'.1 (sound.recent_registered _ (sound.targets target host cached))

/-- A jump to a cached target is predicted if no update is pending, and resolved otherwise. A jump
to any other target fails, and leaves an update pending, or is resolved. A resolved block is stored.
-/
theorem Sound.jump_outcomes (sound : engine.Sound recent) (compile : Compile κ)
    (target : GuestAddr) :
    (∃ host, engine.ctx.targets.lookup target = some host ∧
      engine.ctx.updatePending = false ∧
      (Engine.jump compile engine target).value = .ok (.predicted host) ∧
      (Engine.jump compile engine target).state =
        engine.withContext
          { engine.ctx with
            stats := { engine.ctx.stats with targetHits := engine.ctx.stats.targetHits + 1 } }) ∨
    (∃ host block, engine.ctx.targets.lookup target = some host ∧
      engine.ctx.updatePending = true ∧
      engine.registry.lookup target = some block ∧
      (Engine.jump compile engine target).value = .ok (.resolved block.host) ∧
      (Engine.jump compile engine target).state.ctx.lookups =
        engine.ctx.lookups.hit.update block) ∨
    (∃ fault, engine.ctx.targets.lookup target = none ∧
      (Engine.jump compile engine target).value = .error fault ∧
      (Engine.jump compile engine target).state.ctx.lookups = engine.ctx.lookups.miss) ∨
    (∃ block, engine.ctx.targets.lookup target = none ∧ block.guest = target ∧
      (Engine.jump compile engine target).value = .ok (.resolved block.host) ∧
      (Engine.jump compile engine target).state.ctx.lookups =
        engine.ctx.lookups.miss.update block) := by
  have slow := lookups_resolve compile
    (engine.withContext (engine.ctx.lookupTarget target).state) target
  rcases engine.ctx.lookupTarget_cases target with ⟨host, cached, found, looked⟩ | ⟨new, -, looked⟩
  · rcases jump_cases compile engine target with ⟨settled, value, state⟩ | ⟨pending, _, rfl, went⟩
    · rw [looked] at settled state
      rw [found] at value
      exact Or.inl ⟨host, cached, settled, value, state⟩
    · obtain ⟨block, registered⟩ := sound.exists_block_of_lookup cached
      have resolved : Engine.resolve compile
          (engine.withContext (engine.ctx.lookupTarget target).state) target =
            ⟨.ok block, engine.withContext (engine.ctx.lookupTarget target).state, []⟩ := by
        unfold Engine.resolve
        rw [show (engine.withContext (engine.ctx.lookupTarget target).state).registry.lookup
          target = some block from registered]
      rw [resolved] at went
      rcases went with ⟨_, failed, -, -⟩ | ⟨_, same, value, state⟩
      · cases failed
      · cases same
        rw [looked] at pending state
        refine Or.inr (Or.inl ⟨host, block, cached, pending, registered, value, ?_⟩)
        rw [state]
        rfl
  · rw [looked] at slow
    rcases jump_cases compile engine target with
      ⟨settled, -, -⟩ | ⟨-, _, rfl, ⟨fault, -, value, state⟩ | ⟨block, resolved, value, state⟩⟩
    · rw [looked] at settled
      cases settled
    · refine Or.inr (Or.inr (Or.inl ⟨fault, new, value, ?_⟩))
      rw [state, looked]
      exact slow
    · have here : block.guest = target := Registry.guest_of_lookup (lookup_of_resolve resolved)
      refine Or.inr (Or.inr (Or.inr ⟨block, new, here, value, ?_⟩))
      rw [state, looked]
      exact congrArg (Lookups.update · block) slow

end Engine

end TransferCache
