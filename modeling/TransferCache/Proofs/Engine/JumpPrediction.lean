import TransferCache.Proofs.Engine.History
import TransferCache.Proofs.Engine.Lookups

/-!
# When a jump is predicted

A jump asks after its lookup whether an update is pending, not whether that lookup missed. A jump
that fails leaves an update pending, and the next jump takes the slow path whether its target is
cached or not. So a cached target is predicted exactly if no update is pending, and a hit that meets
a pending update is counted as a hit but answered like a miss.

* `Sound.jump_predicted_iff`: when a jump is predicted.
* `Sound.updatePending_iff`: an update is pending exactly if the last lookup missed and neither an
  update nor a reset followed.
* `Sound.targetHits_run`: hits are predicted jumps and hits that met a pending update.
* `run_jump_predicted`: all of it for an engine just built.
-/

namespace TransferCache

def Action.isJump : Action → Bool
  | .jump _ => true
  | .register _ | .resolve _ | .call .. | .ret _ | .flushCode | .flushStack => false

/-- Looks a target up, or clears what earlier lookups left. -/
def Action.EndsLookup (action : Action) : Prop := action.isJump = true ∨ action = .flushCode

/-- A transfer that a cache predicted. -/
def Answer.isPredicted : Answer → Bool
  | .transferred (.ok transfer) => transfer.isPredicted
  | .transferred (.error _) | .linked _ | .resolved _ | .called _ | .done => false

/-- How many jumps of a run were predicted, given its answers. -/
def predictedJumps (actions : List Action) (answers : List Answer) : Nat :=
  (actions.zip answers).countP fun (action, answer) => action.isJump && answer.isPredicted

/-- A compiler that declines every address. -/
def Compile.declining : Compile Unit := fun _ _ => (none, ())

namespace Engine

variable {κ : Type} {engine : Engine κ} {recent : List Block}

/-- The operation is a jump to a cached target, but an update is pending. -/
def withholds (engine : Engine κ) : Action → Bool
  | .jump target => engine.ctx.updatePending && (engine.ctx.targets.lookup target).isSome
  | .register _ | .resolve _ | .call .. | .ret _ | .flushCode | .flushStack => false

/-- How many jumps of a run met a pending update although their target was cached. -/
def withheldJumps (compile : Compile κ) : Engine κ → List Action → Nat
  | _, [] => 0
  | engine, action :: actions =>
    (if engine.withholds action then 1 else 0) +
      withheldJumps compile (step compile engine action).state actions

/-- A jump whose lookup misses and that runs no update. -/
def MissesForGood (compile : Compile κ) (engine : Engine κ) (action : Action) : Prop :=
  ∃ target, action = .jump target ∧ engine.ctx.targets.lookup target = none ∧
    (jump compile engine target).state.ctx.stats.targetUpdates = engine.ctx.stats.targetUpdates

/-! ## One jump -/

/-- A jump is predicted exactly if its target is cached and no update is pending. -/
theorem Sound.jump_predicted_iff (sound : engine.Sound recent) (compile : Compile κ)
    (target : GuestAddr) (host : HostAddr) :
    (Engine.jump compile engine target).value = .ok (.predicted host) ↔
      engine.ctx.targets.lookup target = some host ∧ engine.ctx.updatePending = false := by
  rcases sound.jump_outcomes compile target with
    ⟨found, cached, settled, value, -⟩ | ⟨_, _, -, pending, -, value, -⟩ | ⟨_, new, value, -⟩ |
      ⟨_, new, -, value, -⟩
  · rw [value, cached, settled]
    simp
  · rw [value, pending]
    simp
  · rw [value, new]
    simp
  · rw [value, new]
    simp

/-- A predicted jump counts a hit and does nothing else. -/
theorem Sound.state_of_jump_predicted (sound : engine.Sound recent) {compile : Compile κ}
    {target : GuestAddr} {host : HostAddr}
    (predicted : (Engine.jump compile engine target).value = .ok (.predicted host)) :
    (Engine.jump compile engine target).state =
      engine.withContext
        { engine.ctx with
          stats := { engine.ctx.stats with targetHits := engine.ctx.stats.targetHits + 1 } } := by
  rcases sound.jump_outcomes compile target with
    ⟨_, -, -, -, state⟩ | ⟨_, _, -, -, -, value, -⟩ | ⟨_, -, value, -⟩ | ⟨_, -, -, value, -⟩
  · exact state
  · cases value.symm.trans predicted
  · cases value.symm.trans predicted
  · cases value.symm.trans predicted

/-- A jump to a cached target that meets a pending update takes the slow path, which finds a block,
and answers the update. -/
theorem Sound.jump_of_updatePending (sound : engine.Sound recent) (compile : Compile κ)
    {target : GuestAddr} {host : HostAddr}
    (cached : engine.ctx.targets.lookup target = some host)
    (pending : engine.ctx.updatePending = true) :
    ∃ block, engine.registry.lookup target = some block ∧
      (Engine.jump compile engine target).value = .ok (.resolved block.host) ∧
      (Engine.jump compile engine target).state.ctx.lookups =
        engine.ctx.lookups.hit.update block := by
  rcases sound.jump_outcomes compile target with
    ⟨_, -, settled, -, -⟩ | ⟨_, block, -, -, registered, value, state⟩ | ⟨_, new, -, -⟩ |
      ⟨_, new, -, -, -⟩
  · cases settled.symm.trans pending
  · exact ⟨block, registered, value, state⟩
  · cases new.symm.trans cached
  · cases new.symm.trans cached

/-! ## Pending updates -/

/-- An update is pending after a jump exactly if the jump missed and ran no update. -/
theorem Sound.updatePending_jump_iff (sound : engine.Sound recent) (compile : Compile κ)
    (target : GuestAddr) :
    (Engine.jump compile engine target).state.ctx.updatePending = true ↔
      engine.ctx.targets.lookup target = none ∧
        (Engine.jump compile engine target).state.ctx.stats.targetUpdates =
          engine.ctx.stats.targetUpdates := by
  have pending : (Engine.jump compile engine target).state.ctx.updatePending =
      (Engine.jump compile engine target).state.ctx.lookups.updatePending := rfl
  have updates : (Engine.jump compile engine target).state.ctx.stats.targetUpdates =
      (Engine.jump compile engine target).state.ctx.lookups.updates := rfl
  have before : engine.ctx.stats.targetUpdates = engine.ctx.lookups.updates := rfl
  rw [pending, updates, before]
  rcases sound.jump_outcomes compile target with
    ⟨_, cached, settled, -, state⟩ | ⟨_, _, cached, -, -, -, state⟩ | ⟨_, new, -, state⟩ |
      ⟨_, new, -, -, state⟩
  · rw [state, cached]
    refine iff_of_false (fun raised => ?_) (by simp)
    cases settled.symm.trans raised
  · rw [state, cached]
    exact iff_of_false (by simp [Lookups.update]) (by simp)
  · rw [state, new]
    exact iff_of_true rfl ⟨rfl, rfl⟩
  · rw [state]
    exact iff_of_false (by simp [Lookups.update]) (by simp [Lookups.update, Lookups.miss])

theorem Sound.updatePending_step_iff (sound : engine.Sound recent) (compile : Compile κ)
    (action : Action) :
    (Engine.step compile engine action).state.ctx.updatePending = true ↔
      MissesForGood compile engine action ∨
        ¬action.EndsLookup ∧ engine.ctx.updatePending = true := by
  have still : (∀ target, action ≠ .jump target) → ¬MissesForGood compile engine action := by
    rintro elsewhere ⟨target, rfl, -⟩
    exact elsewhere target rfl
  have kept : (∀ target, action ≠ .jump target) → action ≠ .flushCode →
      (Engine.step compile engine action).state.ctx.updatePending =
        engine.ctx.updatePending := fun elsewhere going =>
    congrArg Lookups.updatePending (lookups_step compile engine elsewhere going)
  cases action with
  | jump target =>
    have ends : (Action.jump target).EndsLookup := Or.inl rfl
    rw [or_iff_left fun both => both.1 ends]
    refine (sound.updatePending_jump_iff compile target).trans
      ⟨fun missed => ⟨target, rfl, missed⟩, ?_⟩
    rintro ⟨other, same, missed⟩
    cases same
    exact missed
  | flushCode =>
    rw [or_iff_right (still nofun)]
    exact iff_of_false Bool.false_ne_true fun both => both.1 (Or.inr rfl)
  | register | resolve | call | ret | flushStack =>
    rw [or_iff_right (still nofun), kept nofun nofun, and_iff_right]
    rintro (jumps | flushes)
    · cases jumps
    · cases flushes

/-- An update is pending exactly if the last lookup of the run missed, and neither an update nor a
reset followed. -/
theorem Sound.updatePending_iff (sound : engine.Sound recent) (compile : Compile κ)
    (settled : engine.ctx.updatePending = false) (actions : List Action) :
    (Engine.run compile engine actions).state.ctx.updatePending = true ↔
      Since compile engine (MissesForGood compile) Action.EndsLookup actions := by
  have one : ∀ actions action,
      (Engine.run compile engine (actions ++ [action])).state.ctx.updatePending = true ↔
        MissesForGood compile (Engine.run compile engine actions).state action ∨
          ¬action.EndsLookup ∧
            (Engine.run compile engine actions).state.ctx.updatePending = true := by
    intro actions action
    rw [state_run_concat]
    exact (sound.run actions).updatePending_step_iff compile action
  constructor
  · refine since_of_holds
      (fun actions => (Engine.run compile engine actions).state.ctx.updatePending = true)
      ?_ fun actions action => (one actions action).1
    intro pending
    cases settled.symm.trans pending
  · exact holds_of_since
      (fun actions => (Engine.run compile engine actions).state.ctx.updatePending = true)
      (fun actions action misses => (one actions action).2 (Or.inl misses))
      fun actions action keeps before => (one actions action).2 (Or.inr ⟨keeps, before⟩)

/-! ## Counting hits -/

theorem Sound.targetHits_step (sound : engine.Sound recent) (compile : Compile κ)
    (action : Action) :
    (Engine.step compile engine action).state.ctx.stats.targetHits =
      engine.ctx.stats.targetHits +
        ((if action.isJump && (Engine.step compile engine action).value.isPredicted then 1 else 0) +
          if engine.withholds action then 1 else 0) := by
  have kept : (∀ target, action ≠ .jump target) → action ≠ .flushCode →
      (Engine.step compile engine action).state.ctx.stats.targetHits =
        engine.ctx.stats.targetHits := fun elsewhere going =>
    congrArg Lookups.hits (lookups_step compile engine elsewhere going)
  cases action with
  | register | resolve | call | ret | flushStack => exact kept nofun nofun
  | flushCode => rfl
  | jump target =>
    change (Engine.jump compile engine target).state.ctx.lookups.hits =
      engine.ctx.lookups.hits +
        ((if (Answer.transferred (Engine.jump compile engine target).value).isPredicted
            then 1 else 0) +
          if engine.ctx.updatePending && (engine.ctx.targets.lookup target).isSome then 1 else 0)
    rcases sound.jump_outcomes compile target with
      ⟨_, cached, settled, value, state⟩ | ⟨_, _, cached, pending, -, value, state⟩ |
        ⟨_, new, value, state⟩ | ⟨_, new, -, value, state⟩
    · rw [value, state, cached, settled]
      rfl
    · rw [value, state, cached, pending]
      rfl
    · rw [value, state, new, Option.isSome_none, Bool.and_false]
      rfl
    · rw [value, state, new, Option.isSome_none, Bool.and_false]
      rfl

/-- A hit is a predicted jump, or a jump that met a pending update. -/
theorem Sound.targetHits_run (sound : engine.Sound recent) (compile : Compile κ)
    (actions : List Action) :
    (Engine.run compile engine actions).state.ctx.stats.targetHits =
      engine.ctx.stats.targetHits +
        (predictedJumps actions (Engine.run compile engine actions).value +
          withheldJumps compile engine actions) := by
  induction actions generalizing engine recent with
  | nil => rfl
  | cons action actions ih =>
    have first := sound.targetHits_step compile action
    have after : (Engine.step compile engine action).state.Sound _ := sound.step action
    have rest := ih after
    have state : (Engine.run compile engine (action :: actions)).state =
        (Engine.run compile (Engine.step compile engine action).state actions).state := rfl
    have answers : (Engine.run compile engine (action :: actions)).value =
        (Engine.step compile engine action).value ::
          (Engine.run compile (Engine.step compile engine action).state actions).value := rfl
    have counted : ∀ answer answers, predictedJumps (action :: actions) (answer :: answers) =
        predictedJumps actions answers +
          if action.isJump && answer.isPredicted then 1 else 0 :=
      fun answer answers => List.countP_cons
    rw [state, answers, counted, rest, first, withheldJumps]
    omega

/-! ## Engines just built -/

/-- However an engine is used after it was built: a jump is predicted exactly if its target is
cached and no update is pending, and then neither resolves nor updates anything; a jump to a cached
target that meets a pending update is resolved; an update is pending exactly if the last lookup
missed and neither an update nor a reset followed; and the hits are the predicted jumps with those
that met a pending update. -/
theorem run_jump_predicted {config : Config} {compiler : κ} {made : Outcome (Engine κ) Unit}
    (created : create config compiler = .ok made) (compile : Compile κ) (actions : List Action) :
    let engine := (run compile made.state actions).state
    (∀ target host, (jump compile engine target).value = .ok (.predicted host) ↔
      engine.ctx.targets.lookup target = some host ∧ engine.ctx.updatePending = false) ∧
    (∀ target host, (jump compile engine target).value = .ok (.predicted host) →
      (jump compile engine target).state =
        engine.withContext
          { engine.ctx with
            stats :=
              { engine.ctx.stats with targetHits := engine.ctx.stats.targetHits + 1 } }) ∧
    (∀ target host, engine.ctx.targets.lookup target = some host →
      engine.ctx.updatePending = true →
      ∃ block, engine.registry.lookup target = some block ∧
        (jump compile engine target).value = .ok (.resolved block.host)) ∧
    (engine.ctx.updatePending = true ↔
      Since compile made.state (MissesForGood compile) Action.EndsLookup actions) ∧
    engine.ctx.stats.targetHits =
      predictedJumps actions (run compile made.state actions).value +
        withheldJumps compile made.state actions := by
  intro engine
  have new := sound_create created
  have sound : engine.Sound (recentOf compile made.state [] actions) := new.run actions
  have start := (of_create created).1
  have settled : made.state.ctx.updatePending = false := by
    rw [start]
    rfl
  have unused : made.state.ctx.stats.targetHits = 0 := by
    rw [start]
    rfl
  have pending := new.updatePending_iff compile settled actions
  refine ⟨sound.jump_predicted_iff compile, ?_, ?_, pending, ?_⟩
  · exact fun target host predicted => sound.state_of_jump_predicted predicted
  · intro target host cached pending
    obtain ⟨block, registered, value, -⟩ := sound.jump_of_updatePending compile cached pending
    exact ⟨block, registered, value⟩
  · have hits := new.targetHits_run compile actions
    rwa [unused, Nat.zero_add] at hits

/-- A registered target is jumped to and cached, and the next jump fails. -/
def failing : List Action := [.register ⟨⟨16⟩, ⟨10⟩⟩, .jump ⟨16⟩, .jump ⟨32⟩]

/-- The cached target is not predicted while the update for the failed jump is pending, although the
lookup hits and is counted as a hit. -/
theorem resolved_after_failing :
    create .smallest () = .ok ⟨(), smallest, [.contextCreated .smallest]⟩ ∧
      (run .declining smallest failing).state.ctx.targets.lookup ⟨16⟩ = some ⟨10⟩ ∧
      (run .declining smallest failing).state.ctx.updatePending = true ∧
      (jump .declining (run .declining smallest failing).state ⟨16⟩).value =
        .ok (.resolved ⟨10⟩) ∧
      (run .declining smallest (failing ++ [.jump ⟨16⟩])).state.ctx.stats.targetHits = 1 ∧
      (run .declining smallest (failing ++ [.jump ⟨16⟩])).state.ctx.stats.targetUpdates = 2 ∧
      predictedJumps (failing ++ [.jump ⟨16⟩])
        (run .declining smallest (failing ++ [.jump ⟨16⟩])).value = 0 :=
  ⟨create_smallest, rfl, rfl, rfl, rfl, rfl, rfl⟩

/-- Once the pending update is answered, the cached target is predicted. -/
theorem run_jump_predicted_answered :
    create .smallest () = .ok ⟨(), smallest, [.contextCreated .smallest]⟩ ∧
      (jump .declining (run .declining smallest (failing ++ [.jump ⟨16⟩])).state ⟨16⟩).value =
        .ok (.predicted ⟨10⟩) ∧
      (run .declining smallest (failing ++ [.jump ⟨16⟩])).state.ctx.stats.targetHits = 0 + 1 := by
  obtain ⟨predicted, -, -, -, hits⟩ :=
    run_jump_predicted create_smallest .declining (failing ++ [.jump ⟨16⟩])
  exact ⟨create_smallest, (predicted ⟨16⟩ ⟨10⟩).2 ⟨rfl, rfl⟩, hits⟩

end Engine

end TransferCache
