import TransferCache.Engine.Uncached
import TransferCache.Proofs.Engine.Sound

/-!
# Caches are transparent

As long as no registration replaces a block by one with different host code, an engine cannot be
told from one without caches by where its transfers go, by what it has registered, or by what it
asks its compiler. The reason is that every recent block is then still the registered one
(`Engine.Settled`), and everything a cache supplies is recent (`Engine.Sound`).

* `run_transparent`: the statement for whole runs of an engine just built.
-/

namespace TransferCache

variable {κ : Type}

/-! ## Compilers that remember -/

/-- A compiler that keeps a list of the addresses it was asked for, in order. -/
def Compile.recorded (compile : Compile κ) : Compile (κ × List GuestAddr) :=
  fun (state, asked) guest =>
    let (host, after) := compile state guest
    (host, after, asked ++ [guest])

/-- What an engine without caches asks its compiler during a run. -/
def Uncached.asked (compile : Compile κ) (engine : Uncached κ) (actions : List Action) :
    List GuestAddr :=
  (Uncached.run compile.recorded ⟨engine.registry, engine.compiler, []⟩ actions).2.compiler.2

namespace Engine

/-- The engine with a compiler that remembers what it is asked from now on. -/
def recorded (engine : Engine κ) : Engine (κ × List GuestAddr) :=
  ⟨engine.registry, engine.ctx, engine.callSites, engine.compiler, []⟩

/-- The engine with a compiler that does not remember. -/
def erased (engine : Engine (κ × List GuestAddr)) : Engine κ :=
  ⟨engine.registry, engine.ctx, engine.callSites, engine.compiler.1⟩

/-- What an engine asks its compiler during a run. -/
def asked (compile : Compile κ) (engine : Engine κ) (actions : List Action) : List GuestAddr :=
  (run compile.recorded engine.recorded actions).state.compiler.2

variable {compile : Compile κ} {engine : Engine κ} {recent : List Block}

/-! ## Remembering changes nothing else -/

@[simp] theorem registry_erased (engine : Engine (κ × List GuestAddr)) :
    engine.erased.registry = engine.registry := rfl

@[simp] theorem callSites_erased (engine : Engine (κ × List GuestAddr)) :
    engine.erased.callSites = engine.callSites := rfl

theorem resolve_erased (compile : Compile κ) (engine : Engine (κ × List GuestAddr))
    (guest : GuestAddr) :
    resolve compile engine.erased guest =
      (resolve compile.recorded engine guest).within erased := by
  unfold resolve
  rw [registry_erased]
  cases engine.registry.lookup guest with
  | some block => rfl
  | none =>
    simp only [Compile.recorded, erased]
    cases (compile engine.compiler.1 guest).1 <;> rfl

theorem call_erased (engine : Engine (κ × List GuestAddr)) (site ret : GuestAddr) :
    engine.erased.call site ret = (engine.call site ret).within erased := by
  unfold call
  rw [callSites_erased]
  cases engine.callSites.find? site with
  | some known => rfl
  | none =>
    change (((engine.ctx.prepare engine.registry ret).within engine.withContext).within
      erased).andThen _ = _
    apply Outcome.andThen_within
    simp only [Outcome.value_within]
    cases (engine.ctx.prepare engine.registry ret).value <;> rfl

theorem ret_erased (compile : Compile κ) (engine : Engine (κ × List GuestAddr))
    (actual : GuestAddr) :
    ret compile engine.erased actual = (ret compile.recorded engine actual).within erased := by
  unfold ret
  change (((engine.ctx.pop actual).within engine.withContext).within erased).andThen _ = _
  apply Outcome.andThen_within
  simp only [Outcome.value_within]
  cases (engine.ctx.pop actual).value.target? with
  | some host => rfl
  | none => exact congrArg (Outcome.map _) (resolve_erased compile _ actual)

theorem jump_erased (compile : Compile κ) (engine : Engine (κ × List GuestAddr))
    (target : GuestAddr) :
    jump compile engine.erased target = (jump compile.recorded engine target).within erased := by
  unfold jump
  change (((engine.ctx.lookupTarget target).within engine.withContext).within erased).andThen _ = _
  apply Outcome.andThen_within
  simp only [Outcome.value_within, Outcome.state_within]
  by_cases pending : (engine.ctx.lookupTarget target).state.updatePending = true
  · apply (if_pos pending).trans
    refine Eq.trans ?_ (congrArg (Outcome.within erased) (if_pos pending)).symm
    rw [resolve_erased]
    apply Outcome.andThen_within
    cases (resolve compile.recorded
      (engine.withContext (engine.ctx.lookupTarget target).state) target).value <;> rfl
  · apply (if_neg pending).trans
    refine Eq.trans ?_ (congrArg (Outcome.within erased) (if_neg pending)).symm
    rfl

theorem step_erased (compile : Compile κ) (engine : Engine (κ × List GuestAddr))
    (action : Action) :
    step compile engine.erased action = (step compile.recorded engine action).within erased := by
  cases action with
  | register block => rfl
  | resolve guest => exact congrArg (Outcome.map _) (resolve_erased compile engine guest)
  | call site ret => exact congrArg (Outcome.map _) (call_erased engine site ret)
  | ret actual => exact congrArg (Outcome.map _) (ret_erased compile engine actual)
  | jump target => exact congrArg (Outcome.map _) (jump_erased compile engine target)
  | flushCode => rfl
  | flushStack => rfl

theorem run_erased (compile : Compile κ) (engine : Engine (κ × List GuestAddr))
    (actions : List Action) :
    run compile engine.erased actions = (run compile.recorded engine actions).within erased := by
  induction actions generalizing engine with
  | nil => rfl
  | cons action actions ih =>
    unfold run
    rw [step_erased]
    apply Outcome.andThen_within
    rw [ih]
    rfl

/-! ## Registrations that keep host code -/

/-- A registration replaces no block by one with different host code. -/
def KeepsHosts (engine : Engine κ) : Action → Prop
  | .register block => ∀ old, engine.registry.lookup block.guest = some old → old.host = block.host
  | .resolve _ | .call .. | .ret _ | .jump _ | .flushCode | .flushStack => True

/-- No registration of a run replaces a block by one with different host code. -/
def RunKeepsHosts (compile : Compile κ) : Engine κ → List Action → Prop
  | _, [] => True
  | engine, action :: actions =>
    engine.KeepsHosts action ∧ RunKeepsHosts compile (step compile engine action).state actions

theorem RunKeepsHosts.take {actions : List Action}
    (kept : RunKeepsHosts compile engine actions) (count : Nat) :
    RunKeepsHosts compile engine (actions.take count) := by
  induction actions generalizing engine count with
  | nil => simpa using kept
  | cons action actions ih =>
    cases count with
    | zero => trivial
    | succ count => exact ⟨kept.1, ih kept.2 count⟩

theorem runKeepsHosts_recorded {engine : Engine (κ × List GuestAddr)} {actions : List Action}
    (kept : RunKeepsHosts compile engine.erased actions) :
    RunKeepsHosts compile.recorded engine actions := by
  induction actions generalizing engine with
  | nil => trivial
  | cons action actions ih =>
    refine ⟨?_, ih ?_⟩
    · have first := kept.1
      cases action <;> exact first
    · have rest := kept.2
      rwa [step_erased] at rest

/-- Every recent block is still the registered one. -/
def Settled (engine : Engine κ) (recent : List Block) : Prop :=
  ∀ block ∈ recent, engine.registry.lookup block.guest = some block

theorem Settled.register (settled : engine.Settled recent) {block : Block}
    (kept : engine.KeepsHosts (.register block)) :
    (engine.register block).state.Settled (block :: recent) := by
  intro other member
  apply (Registry.lookup_insert _ _ _).trans
  rcases List.mem_cons.1 member with rfl | older
  · exact if_pos rfl
  · have registered := settled other older
    split
    · next here =>
      have host : other.host = block.host := kept other (here ▸ registered)
      obtain ⟨guest, _⟩ := other
      obtain ⟨_, _⟩ := block
      cases here
      cases host
      rfl
    · exact registered

theorem Settled.resolve (settled : engine.Settled recent) (compile : Compile κ)
    (guest : GuestAddr) :
    (resolve compile engine guest).state.Settled
      (engine.registry.newlyFound (resolve compile engine guest).state.registry guest ++
        recent) := by
  rcases resolve_cases compile engine guest with
    ⟨block, -, -, state⟩ | ⟨-, -, -, state⟩ | ⟨host, unregistered, -, -, state⟩
  · rw [state, Registry.newlyFound_self]
    exact settled
  · rw [state, Registry.newlyFound_self]
    exact settled
  · rw [state]
    have found : engine.registry.newlyFound (engine.registry.insert ⟨guest, host⟩) guest =
        [⟨guest, host⟩] := Registry.newlyFound_insert unregistered
    change Settled _ (engine.registry.newlyFound (engine.registry.insert ⟨guest, host⟩) guest ++ _)
    rw [found]
    have same : Settled { engine with compiler := (compile engine.compiler guest).2 } recent :=
      settled
    refine same.register fun old registered => ?_
    cases unregistered.symm.trans registered

theorem Settled.step (settled : engine.Settled recent) {action : Action}
    (kept : engine.KeepsHosts action) :
    (step compile engine action).state.Settled (recentAfter compile engine recent action) := by
  cases action with
  | register block => exact settled.register kept
  | resolve guest => exact settled.resolve compile guest
  | call site ret =>
    have same : (engine.call site ret).state.registry = engine.registry :=
      (registry_call engine site ret).1
    intro block member
    exact (congrArg (Registry.lookup · block.guest) same).trans (settled block member)
  | ret actual =>
    change Settled (ret compile engine actual).state
      (engine.registry.newlyFound (ret compile engine actual).state.registry actual ++ _)
    rcases ret_cases compile engine actual with ⟨_, -, -, state⟩ | ⟨-, -, state⟩
    · rw [state]
      change Settled _ (engine.registry.newlyFound engine.registry actual ++ _)
      rw [Registry.newlyFound_self]
      exact settled
    · rw [state]
      have same : Settled (engine.withContext (engine.ctx.pop actual).state) recent := settled
      exact same.resolve compile actual
  | jump target =>
    change Settled (jump compile engine target).state
      (engine.registry.newlyFound (jump compile engine target).state.registry target ++ _)
    have same : Settled (engine.withContext (engine.ctx.lookupTarget target).state) recent :=
      settled
    rcases jump_cases compile engine target with
      ⟨-, -, state⟩ | ⟨-, slow, rfl, ⟨_, -, -, state⟩ | ⟨_, -, -, state⟩⟩
    · rw [state]
      change Settled _ (engine.registry.newlyFound engine.registry target ++ _)
      rw [Registry.newlyFound_self]
      exact settled
    · rw [state]
      exact same.resolve compile target
    · rw [state]
      exact same.resolve compile target
  | flushCode =>
    intro block member
    cases member
  | flushStack => exact settled

/-! ## One operation against an engine without caches -/

theorem resolve_uncached (compile : Compile κ) (engine : Engine κ) (guest : GuestAddr) :
    (resolve compile engine guest).value.map Block.host =
        (Uncached.resolve compile engine.uncached guest).1 ∧
      (resolve compile engine guest).state.uncached =
        (Uncached.resolve compile engine.uncached guest).2 := by
  have lookup : engine.uncached.registry.lookup guest = engine.registry.lookup guest := rfl
  have ask : compile engine.uncached.compiler guest = compile engine.compiler guest := rfl
  unfold Uncached.resolve
  rcases resolve_cases compile engine guest with
    ⟨block, found, value, state⟩ | ⟨found, declined, value, state⟩ |
      ⟨host, found, compiled, value, state⟩
  · rw [value, state, lookup, found]
    exact ⟨rfl, rfl⟩
  · have answer : compile engine.compiler guest = (none, (compile engine.compiler guest).2) :=
      Prod.ext declined rfl
    rw [value, state, lookup, found, ask]
    simp only
    rw [answer]
    exact ⟨rfl, rfl⟩
  · have answer : compile engine.compiler guest =
        (some host, (compile engine.compiler guest).2) := Prod.ext compiled rfl
    rw [value, state, lookup, found, ask]
    simp only
    rw [answer]
    exact ⟨rfl, rfl⟩

/-- A registered address is resolved to its block, with or without caches. -/
theorem uncached_resolve_of_lookup {guest : GuestAddr} {block : Block}
    (found : engine.registry.lookup guest = some block) :
    Uncached.resolve compile engine.uncached guest = (.ok block.host, engine.uncached) := by
  unfold Uncached.resolve
  rw [show engine.uncached.registry.lookup guest = some block from found]

theorem Sound.ret_uncached (sound : engine.Sound recent) (settled : engine.Settled recent)
    (compile : Compile κ) (actual : GuestAddr) :
    (Engine.ret compile engine actual).value.map Transfer.host =
        (Uncached.resolve compile engine.uncached actual).1 ∧
      (Engine.ret compile engine actual).state.uncached =
        (Uncached.resolve compile engine.uncached actual).2 := by
  rcases ret_cases compile engine actual with ⟨host, hit, value, state⟩ | ⟨-, value, state⟩
  · have registered := settled _ (sound.recent_of_hit hit).1
    rw [value, state, uncached_resolve_of_lookup registered]
    exact ⟨rfl, rfl⟩
  · rcases resolve_uncached compile (engine.withContext (engine.ctx.pop actual).state) actual with
      ⟨target, after⟩
    rw [value, state]
    refine ⟨?_, after⟩
    rw [← show _ = (Uncached.resolve compile engine.uncached actual).1 from target]
    cases (Engine.resolve compile (engine.withContext (engine.ctx.pop actual).state) actual).value
      <;> rfl

theorem Sound.jump_uncached (sound : engine.Sound recent) (settled : engine.Settled recent)
    (compile : Compile κ) (target : GuestAddr) :
    (Engine.jump compile engine target).value.map Transfer.host =
        (Uncached.resolve compile engine.uncached target).1 ∧
      (Engine.jump compile engine target).state.uncached =
        (Uncached.resolve compile engine.uncached target).2 := by
  have slowly := resolve_uncached compile
    (engine.withContext (engine.ctx.lookupTarget target).state) target
  rcases jump_cases compile engine target with
    ⟨settledNow, value, state⟩ |
      ⟨-, slow, rfl, ⟨fault, failed, value, state⟩ | ⟨block, resolved, value, state⟩⟩
  · have registered := settled _ (sound.recent_of_jump value)
    rw [value, state, uncached_resolve_of_lookup registered]
    exact ⟨rfl, rfl⟩
  · rw [value, state]
    rw [failed] at slowly
    exact slowly
  · rw [value, state]
    rw [resolved] at slowly
    exact slowly

theorem Sound.step_uncached (sound : engine.Sound recent) (settled : engine.Settled recent)
    (compile : Compile κ) (action : Action) :
    (Engine.step compile engine action).value.target? =
        (Uncached.step compile engine.uncached action).1 ∧
      (Engine.step compile engine action).state.uncached =
        (Uncached.step compile engine.uncached action).2 := by
  cases action with
  | register block => exact ⟨rfl, rfl⟩
  | resolve guest =>
    obtain ⟨value, state⟩ := resolve_uncached compile engine guest
    exact ⟨congrArg some value, state⟩
  | call site ret =>
    obtain ⟨registry, compiler⟩ := registry_call engine site ret
    exact ⟨rfl, congrArg₂ Uncached.mk registry compiler⟩
  | ret actual =>
    obtain ⟨value, state⟩ := sound.ret_uncached settled compile actual
    exact ⟨congrArg some value, state⟩
  | jump target =>
    obtain ⟨value, state⟩ := sound.jump_uncached settled compile target
    exact ⟨congrArg some value, state⟩
  | flushCode => exact ⟨rfl, rfl⟩
  | flushStack => exact ⟨rfl, rfl⟩

/-! ## Whole runs -/

theorem Sound.run_uncached (sound : engine.Sound recent) (settled : engine.Settled recent)
    {actions : List Action} (kept : RunKeepsHosts compile engine actions) :
    (Engine.run compile engine actions).value.map Answer.target? =
        (Uncached.run compile engine.uncached actions).1 ∧
      (Engine.run compile engine actions).state.uncached =
        (Uncached.run compile engine.uncached actions).2 := by
  induction actions generalizing engine recent with
  | nil => exact ⟨rfl, rfl⟩
  | cons action actions ih =>
    obtain ⟨target, after⟩ := sound.step_uncached settled compile action
    obtain ⟨targets, last⟩ := ih (sound.step action) (settled.step kept.1) kept.2
    rw [after] at targets last
    exact ⟨congrArg₂ List.cons target targets, last⟩

/-! ## Engines just built -/

/-- An engine just built can be told from one without caches neither by its targets, nor by its
registry, nor by what its compiler is asked, at any point of a run that keeps host code. -/
theorem run_transparent {config : Config} {compiler : κ} {made : Outcome (Engine κ) Unit}
    (created : create config compiler = .ok made) {actions : List Action}
    (kept : RunKeepsHosts compile made.state actions) (steps : Nat) :
    (run compile made.state (actions.take steps)).value.map Answer.target? =
        (Uncached.run compile (.create compiler) (actions.take steps)).1 ∧
      (run compile made.state (actions.take steps)).state.registry =
        (Uncached.run compile (.create compiler) (actions.take steps)).2.registry ∧
      (run compile made.state (actions.take steps)).state.compiler =
        (Uncached.run compile (.create compiler) (actions.take steps)).2.compiler ∧
      asked compile made.state (actions.take steps) =
        Uncached.asked compile (.create compiler) (actions.take steps) := by
  have sound := sound_create created
  have plain : made.state.uncached = .create compiler := by
    rw [(of_create created).1]
    rfl
  have settled : made.state.Settled [] := fun block member => nomatch member
  obtain ⟨targets, last⟩ := sound.run_uncached settled (kept.take steps)
  rw [plain] at targets last
  refine ⟨targets, congrArg Uncached.registry last, congrArg Uncached.compiler last, ?_⟩
  -- The same for the compiler that remembers what it is asked.
  have remembering : made.state.recorded.Sound [] :=
    ⟨sound.keyed, sound.linking, sound.shadow_wf, sound.frames, sound.targets_sized,
      sound.targets, sound.registered, sound.recent_registered⟩
  have unsettled : made.state.recorded.Settled [] := fun block member => nomatch member
  have keeping : RunKeepsHosts compile.recorded made.state.recorded (actions.take steps) :=
    runKeepsHosts_recorded (kept.take steps)
  obtain ⟨-, final⟩ := remembering.run_uncached unsettled keeping
  have start : made.state.recorded.uncached =
      ⟨(Uncached.create compiler).registry, (Uncached.create compiler).compiler, []⟩ :=
    congrArg₂ (fun registry compiler => Uncached.mk registry (compiler, []))
      (congrArg Uncached.registry plain) (congrArg Uncached.compiler plain)
  rw [start] at final
  exact congrArg (fun engine => engine.compiler.2) final

/-- A run in which a call fails for want of a slot and a block is registered twice. -/
def registeringTwice : List Action :=
  [.register ⟨⟨16⟩, ⟨10⟩⟩, .call ⟨1⟩ ⟨16⟩, .call ⟨2⟩ ⟨32⟩, .ret ⟨16⟩, .register ⟨⟨16⟩, ⟨10⟩⟩,
    .jump ⟨32⟩]

theorem runKeepsHosts_registeringTwice : RunKeepsHosts .identical smallest registeringTwice := by
  refine ⟨nofun, trivial, trivial, trivial, ?_, trivial, trivial⟩
  intro old found
  cases found
  rfl

theorem run_transparent_registeringTwice :
    create .smallest () = .ok ⟨(), smallest, [.contextCreated .smallest]⟩ ∧
      RunKeepsHosts .identical smallest registeringTwice ∧
      (run .identical smallest registeringTwice).value.map Answer.target? =
        [none, none, none, some (.ok ⟨10⟩), none, some (.ok ⟨32⟩)] ∧
      asked .identical smallest registeringTwice = [⟨32⟩] := by
  rcases run_transparent create_smallest runKeepsHosts_registeringTwice 6 with
    ⟨targets, -, -, asked⟩
  exact ⟨create_smallest, runKeepsHosts_registeringTwice, targets, asked⟩

end Engine

end TransferCache
