import Mathlib.Data.List.Induction
import TransferCache.Proofs.Engine.Sound

/-!
# What happened in a run

What an engine holds at the end of a run was brought about by one of its operations. `Since` says
which: some operation, in the state that it met, was an event of the kind, and none after it put an
end to what the event brought about. A fact about the run is shown to be of this form from what one
more operation does to it.

* `since_of_holds`: a fact that only an event can bring about has its event.
* `holds_of_since`: a fact that every event brings about, and that lasts, holds after its event.
* `mem_recentOf_iff`: the recent blocks are those registered since the last flush of the code.
-/

namespace TransferCache

/-- The address that an operation wants host code for. -/
def Action.target? : Action → Option GuestAddr
  | .resolve guest | .ret guest | .jump guest => some guest
  | .register _ | .call .. | .flushCode | .flushStack => none

namespace Engine

variable {κ : Type} {compile : Compile κ} {start : Engine κ}

theorem state_run_concat (compile : Compile κ) (start : Engine κ) (actions : List Action)
    (action : Action) :
    (run compile start (actions ++ [action])).state =
      (step compile (run compile start actions).state action).state :=
  state_run_append compile start actions [action]

theorem recentOf_append (compile : Compile κ) (start : Engine κ) (recent : List Block)
    (earlier later : List Action) :
    recentOf compile start recent (earlier ++ later) =
      recentOf compile (run compile start earlier).state (recentOf compile start recent earlier)
        later := by
  induction earlier generalizing start recent with
  | nil => rfl
  | cons action actions ih =>
    exact ih (step compile start action).state (recentAfter compile start recent action)

/-- An operation of the run was such an event in the state that it met, and no later one ends it. -/
def Since (compile : Compile κ) (start : Engine κ) (event : Engine κ → Action → Prop)
    (ends : Action → Prop) (actions : List Action) : Prop :=
  ∃ earlier action later, actions = earlier ++ action :: later ∧
    event (run compile start earlier).state action ∧ ∀ other ∈ later, ¬ends other

section Since

variable {event : Engine κ → Action → Prop} {ends : Action → Prop} {actions : List Action}
  {action : Action}

theorem Since.here (happens : event (run compile start actions).state action) :
    Since compile start event ends (actions ++ [action]) :=
  ⟨actions, action, [], rfl, happens, fun _ member => nomatch member⟩

theorem Since.cons (first : Action)
    (since : Since compile (step compile start first).state event ends actions) :
    Since compile start event ends (first :: actions) := by
  obtain ⟨earlier, action, later, rfl, happens, last⟩ := since
  exact ⟨first :: earlier, action, later, rfl, happens, last⟩

theorem Since.concat (since : Since compile start event ends actions) (lasts : ¬ends action) :
    Since compile start event ends (actions ++ [action]) := by
  obtain ⟨earlier, happened, later, rfl, happens, last⟩ := since
  refine ⟨earlier, happened, later ++ [action], by simp, happens, ?_⟩
  intro other member
  rcases List.mem_append.1 member with before | now
  · exact last other before
  · rw [List.mem_singleton.1 now]
    exact lasts

/-- A fact about a run that an operation leaves behind only as such an event or by keeping it has
had its event, or has held from the start and was not ended. -/
theorem since_or_held (holds : List Action → Prop)
    (arises : ∀ actions action, holds (actions ++ [action]) →
      event (run compile start actions).state action ∨ ¬ends action ∧ holds actions)
    (now : holds actions) :
    Since compile start event ends actions ∨ holds [] ∧ ∀ action ∈ actions, ¬ends action := by
  induction actions using List.reverseRecOn with
  | nil => exact Or.inr ⟨now, fun _ member => nomatch member⟩
  | append_singleton actions action ih =>
    rcases arises actions action now with happens | ⟨lasts, before⟩
    · exact Or.inl (Since.here happens)
    · rcases ih before with since | ⟨held, none⟩
      · exact Or.inl (since.concat lasts)
      · refine Or.inr ⟨held, fun other member => ?_⟩
        rcases List.mem_append.1 member with earlier | here
        · exact none other earlier
        · rw [List.mem_singleton.1 here]
          exact lasts

/-- A fact about a run that does not hold at its start, and that an operation leaves behind only as
such an event or by keeping it, has had its event. -/
theorem since_of_holds (holds : List Action → Prop) (fresh : ¬holds [])
    (arises : ∀ actions action, holds (actions ++ [action]) →
      event (run compile start actions).state action ∨ ¬ends action ∧ holds actions)
    (now : holds actions) : Since compile start event ends actions :=
  (since_or_held holds arises now).resolve_right fun held => fresh held.1

/-- A fact about a run that every such event brings about, and that lasts until it is ended, holds
after its event. -/
theorem holds_of_since (holds : List Action → Prop)
    (begins : ∀ actions action, event (run compile start actions).state action →
      holds (actions ++ [action]))
    (lasts : ∀ actions action, ¬ends action → holds actions → holds (actions ++ [action]))
    (since : Since compile start event ends actions) : holds actions := by
  obtain ⟨earlier, action, later, rfl, happens, last⟩ := since
  induction later using List.reverseRecOn with
  | nil => exact begins earlier action happens
  | append_singleton later other ih =>
    have before := ih fun known member => last known (List.mem_append_left _ member)
    have goes : ¬ends other := last other (List.mem_append_right _ List.mem_cons_self)
    have longer := lasts (earlier ++ action :: later) other goes before
    rwa [List.append_assoc] at longer

/-- A fact about the state that an operation on any sound engine leaves behind only as such an event
or by keeping it has had its event, or has held from the start and was not ended. -/
theorem Sound.since_or_state {recent : List Block} (sound : start.Sound recent)
    (holds : Engine κ → Prop)
    (arises : ∀ {engine : Engine κ} {recent : List Block}, engine.Sound recent → ∀ action,
      holds (Engine.step compile engine action).state →
        event engine action ∨ ¬ends action ∧ holds engine)
    (now : holds (Engine.run compile start actions).state) :
    Since compile start event ends actions ∨ holds start ∧ ∀ action ∈ actions, ¬ends action := by
  refine since_or_held (fun actions => holds (Engine.run compile start actions).state) ?_ now
  intro actions action after
  rw [state_run_concat] at after
  exact arises (sound.run actions) action after

/-- If it does not hold at the start, it has had its event. -/
theorem Sound.since_of_state {recent : List Block} (sound : start.Sound recent)
    (holds : Engine κ → Prop) (fresh : ¬holds start)
    (arises : ∀ {engine : Engine κ} {recent : List Block}, engine.Sound recent → ∀ action,
      holds (Engine.step compile engine action).state →
        event engine action ∨ ¬ends action ∧ holds engine)
    (now : holds (Engine.run compile start actions).state) :
    Since compile start event ends actions :=
  (sound.since_or_state holds arises now).resolve_right fun held => fresh held.1

end Since

/-! ## Registrations -/

/-- An operation that registers this block: a registration of it, or an operation whose slow path
compiles it for an address without a block. -/
inductive Registers (compile : Compile κ) (block : Block) (engine : Engine κ) : Action → Prop
  | named : Registers compile block engine (.register block)
  | compiled {action : Action} (asks : action.target? = some block.guest)
    (unregistered : engine.registry.lookup block.guest = none)
    (compiles : (compile engine.compiler block.guest).1 = some block.host)
    (registered : (step compile engine action).state.registry.lookup block.guest = some block) :
    Registers compile block engine action

variable {engine : Engine κ} {recent : List Block}

theorem Registers.lookup {block : Block} {action : Action}
    (registers : Registers compile block engine action) :
    (step compile engine action).state.registry.lookup block.guest = some block := by
  cases registers with
  | named => exact engine.registry.lookup_insert_self block
  | compiled _ _ _ registered => exact registered

/-- The slow path leaves the registry as it is, or registers what it compiles for an address without
a block. -/
theorem registry_resolve (compile : Compile κ) (engine : Engine κ) (guest : GuestAddr) :
    (resolve compile engine guest).state.registry = engine.registry ∨
      ∃ host, engine.registry.lookup guest = none ∧
        (compile engine.compiler guest).1 = some host ∧
        (resolve compile engine guest).state.registry = engine.registry.insert ⟨guest, host⟩ := by
  rcases resolve_cases compile engine guest with
    ⟨_, -, -, state⟩ | ⟨-, -, -, state⟩ | ⟨host, unregistered, compiles, -, state⟩
  · rw [state]
    exact Or.inl rfl
  · rw [state]
    exact Or.inl rfl
  · rw [state]
    exact Or.inr ⟨host, unregistered, compiles, rfl⟩

/-- So does every operation that has a target. -/
theorem registry_step_of_target (compile : Compile κ) (engine : Engine κ) {action : Action}
    {guest : GuestAddr} (asks : action.target? = some guest) :
    (step compile engine action).state.registry = engine.registry ∨
      ∃ host, engine.registry.lookup guest = none ∧
        (compile engine.compiler guest).1 = some host ∧
        (step compile engine action).state.registry = engine.registry.insert ⟨guest, host⟩ := by
  cases action with
  | register | call | flushCode | flushStack => cases asks
  | resolve =>
    cases asks
    exact registry_resolve compile engine guest
  | ret =>
    cases asks
    have after : (step compile engine (.ret guest)).state = (ret compile engine guest).state := rfl
    rcases ret_cases compile engine guest with ⟨_, -, -, state⟩ | ⟨-, -, state⟩
    · rw [after, state]
      exact Or.inl rfl
    · rw [after, state]
      exact registry_resolve compile (engine.withContext (engine.ctx.pop guest).state) guest
  | jump =>
    cases asks
    have after : (step compile engine (.jump guest)).state = (jump compile engine guest).state :=
      rfl
    have slow := registry_resolve compile
      (engine.withContext (engine.ctx.lookupTarget guest).state) guest
    rcases jump_cases compile engine guest with
      ⟨-, -, state⟩ | ⟨-, _, rfl, ⟨_, -, -, state⟩ | ⟨_, -, -, state⟩⟩
    · rw [after, state]
      exact Or.inl rfl
    · rw [after, state]
      exact slow
    · rw [after, state]
      exact slow

/-- A block that is registered after an operation was registered by it, or before and not flushed.
-/
theorem registers_of_lookup {action : Action} {guest : GuestAddr} {block : Block}
    (registered : (step compile engine action).state.registry.lookup guest = some block) :
    Registers compile block engine action ∨
      action ≠ .flushCode ∧ engine.registry.lookup guest = some block := by
  have here : block.guest = guest := Registry.guest_of_lookup registered
  have slow : action.target? ≠ none → action ≠ .flushCode →
      Registers compile block engine action ∨
        action ≠ .flushCode ∧ engine.registry.lookup guest = some block := by
    intro aims going
    obtain ⟨target, asks⟩ := Option.ne_none_iff_exists'.1 aims
    rcases registry_step_of_target compile engine asks with
      same | ⟨host, unregistered, compiles, inserted⟩
    · rw [same] at registered
      exact Or.inr ⟨going, registered⟩
    · have found := registered
      rw [inserted, Registry.lookup_insert] at found
      split at found
      · next known =>
        cases found
        rw [← here] at registered
        exact Or.inl (.compiled asks unregistered compiles registered)
      · exact Or.inr ⟨going, found⟩
  cases action with
  | resolve | ret | jump => exact slow nofun nofun
  | flushCode => cases registered
  | flushStack => exact Or.inr ⟨nofun, registered⟩
  | call site ret =>
    have same : (step compile engine (.call site ret)).state.registry = engine.registry :=
      (engine.registry_call site ret).1
    rw [same] at registered
    exact Or.inr ⟨nofun, registered⟩
  | register other =>
    have inserted : (engine.registry.insert other).lookup guest = some block := registered
    rw [Registry.lookup_insert] at inserted
    split at inserted
    · cases inserted
      exact Or.inl .named
    · exact Or.inr ⟨nofun, inserted⟩

/-- A block that an operation with a target finds new is one that it registers. -/
theorem mem_newlyFound_iff {action : Action} {guest : GuestAddr}
    (asks : action.target? = some guest) {block : Block} :
    block ∈ engine.registry.newlyFound (step compile engine action).state.registry guest ↔
      Registers compile block engine action := by
  unfold Registry.newlyFound
  constructor
  · intro found
    cases unregistered : engine.registry.lookup guest with
    | some known =>
      rw [unregistered] at found
      cases found
    | none =>
      rw [unregistered] at found
      have registered := Option.mem_toList.1 found
      obtain rfl := Registry.guest_of_lookup registered
      refine .compiled asks unregistered ?_ registered
      rcases registry_step_of_target compile engine asks with
        same | ⟨host, -, compiles, inserted⟩
      · rw [same] at registered
        cases unregistered.symm.trans registered
      · rw [inserted, Registry.lookup_insert, if_pos rfl] at registered
        rw [compiles, ← congrArg Block.host (Option.some.inj registered)]
  · rintro (_ | ⟨alsoAsks, unregistered, -, registered⟩)
    · cases asks
    · obtain rfl : guest = block.guest := Option.some.inj (asks.symm.trans alsoAsks)
      rw [unregistered]
      exact Option.mem_toList.2 registered

theorem mem_recentAfter_iff {action : Action} {block : Block} :
    block ∈ recentAfter compile engine recent action ↔
      Registers compile block engine action ∨ action ≠ .flushCode ∧ block ∈ recent := by
  have slow : ∀ {guest}, action.target? = some guest → action ≠ .flushCode →
      (block ∈ engine.registry.newlyFound (step compile engine action).state.registry guest ++
          recent ↔
        Registers compile block engine action ∨ action ≠ .flushCode ∧ block ∈ recent) := by
    intro guest asks going
    rw [List.mem_append, mem_newlyFound_iff asks, and_iff_right going]
  have idle : action.target? = none → (∀ other, action ≠ .register other) →
      ¬Registers compile block engine action := by
    rintro aimless unnamed (_ | ⟨asks, -⟩)
    · exact unnamed block rfl
    · cases aimless.symm.trans asks
  cases action with
  | register other =>
    refine List.mem_cons.trans (or_congr ⟨?_, ?_⟩ ⟨fun older => ⟨nofun, older⟩, And.right⟩)
    · rintro rfl
      exact .named
    · rintro (_ | ⟨asks, -⟩)
      · rfl
      · cases asks
  | resolve guest => exact slow rfl nofun
  | ret guest => exact slow rfl nofun
  | jump guest => exact slow rfl nofun
  | call =>
    rw [or_iff_right (idle rfl nofun), and_iff_right nofun]
    exact Iff.rfl
  | flushStack =>
    rw [or_iff_right (idle rfl nofun), and_iff_right nofun]
    exact Iff.rfl
  | flushCode =>
    rw [or_iff_right (idle rfl nofun)]
    exact iff_of_false List.not_mem_nil fun both => both.1 rfl

/-- The recent blocks are those registered since the last flush of the code. -/
theorem mem_recentOf_iff {actions : List Action} {block : Block} :
    block ∈ recentOf compile start [] actions ↔
      Since compile start (Registers compile block) (· = .flushCode) actions := by
  have one : ∀ actions action, block ∈ recentOf compile start [] (actions ++ [action]) ↔
      Registers compile block (run compile start actions).state action ∨
        action ≠ .flushCode ∧ block ∈ recentOf compile start [] actions := by
    intro actions action
    rw [recentOf_append]
    exact mem_recentAfter_iff
  constructor
  · exact since_of_holds (block ∈ recentOf compile start [] ·) List.not_mem_nil
      fun actions action => (one actions action).1
  · exact holds_of_since (block ∈ recentOf compile start [] ·)
      (fun actions action happens => (one actions action).2 (Or.inl happens))
      fun actions action goes before => (one actions action).2 (Or.inr ⟨goes, before⟩)

end Engine

end TransferCache
