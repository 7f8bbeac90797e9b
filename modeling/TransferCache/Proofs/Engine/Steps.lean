import TransferCache.Engine.Action
import TransferCache.Proofs.Context.Steps

/-!
# What each operation does to an engine

As for contexts: one statement for the slow path, one for calls, one for returns and one for jumps,
each of which says everything that the operation can do.
-/

namespace TransferCache.Engine

variable {κ : Type} {compile : Compile κ} {engine : Engine κ}

/-- The compiled call sites, in the order of their compilation. -/
def compiled (engine : Engine κ) : List CallSite := engine.callSites.entries.map Prod.snd

theorem mem_compiled_of_find? {site : GuestAddr} {known : CallSite}
    (found : engine.callSites.find? site = some known) : known ∈ engine.compiled :=
  List.mem_map_of_mem (AddressMap.mem_of_find? found)

theorem compiled_insert {site : GuestAddr} (new : engine.callSites.find? site = none)
    (fresh : CallSite) :
    { engine with callSites := engine.callSites.insert site fresh }.compiled =
      engine.compiled ++ [fresh] := by
  unfold compiled
  rw [AddressMap.entries_insert_of_find?_eq_none new, List.map_append, List.map_singleton]

/-! ## The slow path -/

/-- A registered block is found and nothing changes; otherwise the compiler is asked once, and what
it compiles is registered. -/
theorem resolve_cases (compile : Compile κ) (engine : Engine κ) (guest : GuestAddr) :
    (∃ block, engine.registry.lookup guest = some block ∧
      (resolve compile engine guest).value = .ok block ∧
      (resolve compile engine guest).state = engine) ∨
    (engine.registry.lookup guest = none ∧ (compile engine.compiler guest).1 = none ∧
      (resolve compile engine guest).value = .error ⟨guest⟩ ∧
      (resolve compile engine guest).state =
        { engine with compiler := (compile engine.compiler guest).2 }) ∨
    (∃ host, engine.registry.lookup guest = none ∧
      (compile engine.compiler guest).1 = some host ∧
      (resolve compile engine guest).value = .ok ⟨guest, host⟩ ∧
      (resolve compile engine guest).state =
        ({ engine with compiler := (compile engine.compiler guest).2 }.register
          ⟨guest, host⟩).state) := by
  unfold resolve
  cases found : engine.registry.lookup guest with
  | some block => exact Or.inl ⟨block, rfl, rfl, rfl⟩
  | none =>
    refine Or.inr ?_
    cases compiled : (compile engine.compiler guest).1 with
    | none => exact Or.inl ⟨rfl, rfl, by simp only [compiled, and_self]⟩
    | some host =>
      refine Or.inr ⟨host, rfl, rfl, ?_⟩
      simp only [compiled, Outcome.value_map, Outcome.state_map, and_self]

/-- What the slow path resolves is registered afterwards. -/
theorem lookup_of_resolve {guest : GuestAddr} {block : Block}
    (resolved : (resolve compile engine guest).value = .ok block) :
    (resolve compile engine guest).state.registry.lookup guest = some block := by
  rcases resolve_cases compile engine guest with
    ⟨known, found, value, state⟩ | ⟨-, -, value, -⟩ | ⟨host, -, -, value, state⟩
  · cases value.symm.trans resolved
    rw [state]
    exact found
  · cases value.symm.trans resolved
  · cases value.symm.trans resolved
    rw [state]
    exact Registry.lookup_insert_self _ _

/-! ## Calls -/

theorem runCall_eq (engine : Engine κ) (site : CallSite) :
    (engine.runCall site).value = .ok site ∧
      (engine.runCall site).state = engine.withContext (engine.ctx.push site).state :=
  ⟨rfl, rfl⟩

/-- A known call site is run; a new one is prepared, remembered and run, or refused. -/
theorem call_cases (engine : Engine κ) (site ret : GuestAddr) :
    (∃ known, engine.callSites.find? site = some known ∧
      engine.call site ret = engine.runCall known) ∨
    (∃ fault, engine.callSites.find? site = none ∧
      (engine.ctx.prepare engine.registry ret).value = .error fault ∧
      (engine.call site ret).value = .error fault ∧
      (engine.call site ret).state =
        engine.withContext (engine.ctx.prepare engine.registry ret).state) ∨
    (∃ fresh, engine.callSites.find? site = none ∧
      (engine.ctx.prepare engine.registry ret).value = .ok fresh ∧
      (engine.call site ret).value = .ok fresh ∧
      (engine.call site ret).state =
        ({ engine.withContext (engine.ctx.prepare engine.registry ret).state with
          callSites := engine.callSites.insert site fresh }.runCall fresh).state) := by
  unfold call
  cases found : engine.callSites.find? site with
  | some known => exact Or.inl ⟨known, rfl, rfl⟩
  | none =>
    refine Or.inr ?_
    simp only [Outcome.value_andThen, Outcome.state_andThen, Outcome.value_within,
      Outcome.state_within]
    cases prepared : (engine.ctx.prepare engine.registry ret).value with
    | error fault => exact Or.inl ⟨fault, trivial, rfl, rfl, rfl⟩
    | ok fresh => exact Or.inr ⟨fresh, trivial, rfl, rfl, rfl⟩

/-- Calls register and compile no block. -/
theorem registry_call (engine : Engine κ) (site ret : GuestAddr) :
    (engine.call site ret).state.registry = engine.registry ∧
      (engine.call site ret).state.compiler = engine.compiler := by
  rcases engine.call_cases site ret with
    ⟨known, -, called⟩ | ⟨_, -, -, -, state⟩ | ⟨_, -, -, -, state⟩
  · rw [called]
    exact ⟨rfl, rfl⟩
  · rw [state]
    exact ⟨rfl, rfl⟩
  · rw [state]
    exact ⟨rfl, rfl⟩

/-! ## Returns and jumps -/

/-- A return goes where the shadow stack predicts, or else takes the slow path from the context that
the pop left. -/
theorem ret_cases (compile : Compile κ) (engine : Engine κ) (actual : GuestAddr) :
    (∃ host, (engine.ctx.pop actual).value = .hit host ∧
      (ret compile engine actual).value = .ok (.predicted host) ∧
      (ret compile engine actual).state = engine.withContext (engine.ctx.pop actual).state) ∨
    ((∀ host, (engine.ctx.pop actual).value ≠ .hit host) ∧
      (ret compile engine actual).value =
        (resolve compile (engine.withContext (engine.ctx.pop actual).state) actual).value.map
          (fun block => .resolved block.host) ∧
      (ret compile engine actual).state =
        (resolve compile (engine.withContext (engine.ctx.pop actual).state) actual).state) := by
  unfold ret
  simp only [Outcome.value_andThen, Outcome.state_andThen, Outcome.value_within,
    Outcome.state_within]
  cases (engine.ctx.pop actual).value with
  | hit host => exact Or.inl ⟨host, rfl, rfl, rfl⟩
  | mismatch => exact Or.inr ⟨fun _ => Prediction.noConfusion, rfl, rfl⟩
  | unresolved => exact Or.inr ⟨fun _ => Prediction.noConfusion, rfl, rfl⟩

/-- A return is predicted exactly by a pop that hits. -/
theorem ret_predicted_iff (compile : Compile κ) (engine : Engine κ) (actual : GuestAddr)
    (host : HostAddr) :
    (ret compile engine actual).value = .ok (.predicted host) ↔
      (engine.ctx.pop actual).value = .hit host := by
  rcases ret_cases compile engine actual with ⟨found, hit, value, -⟩ | ⟨missed, value, -⟩
  · rw [hit, value]
    simp
  · refine iff_of_false (fun predicted => ?_) (missed host)
    rw [value] at predicted
    cases resolved : (resolve compile
      (engine.withContext (engine.ctx.pop actual).state) actual).value with
    | error fault =>
      rw [resolved] at predicted
      cases predicted
    | ok block =>
      rw [resolved] at predicted
      cases predicted

/-- A jump goes where the cache says if no update is pending after the lookup; otherwise it takes
the slow path, and a resolved block is stored. -/
theorem jump_cases (compile : Compile κ) (engine : Engine κ) (target : GuestAddr) :
    ((engine.ctx.lookupTarget target).state.updatePending = false ∧
      (jump compile engine target).value =
        .ok (.predicted (engine.ctx.lookupTarget target).value) ∧
      (jump compile engine target).state =
        engine.withContext (engine.ctx.lookupTarget target).state) ∨
    ((engine.ctx.lookupTarget target).state.updatePending = true ∧
      ∃ slow, slow =
          resolve compile (engine.withContext (engine.ctx.lookupTarget target).state) target ∧
        ((∃ fault, slow.value = .error fault ∧
          (jump compile engine target).value = .error fault ∧
          (jump compile engine target).state = slow.state) ∨
        (∃ block, slow.value = .ok block ∧
          (jump compile engine target).value = .ok (.resolved block.host) ∧
          (jump compile engine target).state =
            slow.state.withContext (slow.state.ctx.updateTarget block).state))) := by
  unfold jump
  simp only [Outcome.value_andThen, Outcome.state_andThen, Outcome.value_within,
    Outcome.state_within]
  have sees : (engine.withContext (engine.ctx.lookupTarget target).state).ctx.updatePending =
      (engine.ctx.lookupTarget target).state.updatePending := rfl
  cases pending : (engine.ctx.lookupTarget target).state.updatePending with
  | false =>
    refine Or.inl ⟨rfl, ?_⟩
    simp only [sees, pending, Bool.false_eq_true, if_false, and_self]
  | true =>
    refine Or.inr ⟨rfl, _, rfl, ?_⟩
    simp only [sees, pending, if_true, Outcome.value_andThen, Outcome.state_andThen]
    cases (resolve compile (engine.withContext (engine.ctx.lookupTarget target).state)
      target).value with
    | error fault => exact Or.inl ⟨fault, rfl, rfl, rfl⟩
    | ok block => exact Or.inr ⟨block, rfl, rfl, rfl⟩

/-! ## The shadow stack -/

/-- The slow path leaves the stack alone. -/
theorem shadow_resolve (compile : Compile κ) (engine : Engine κ) (guest : GuestAddr) :
    (resolve compile engine guest).state.ctx.shadow = engine.ctx.shadow := by
  rcases resolve_cases compile engine guest with
    ⟨_, -, -, state⟩ | ⟨-, -, -, state⟩ | ⟨_, -, -, -, state⟩
  · rw [state]
  · rw [state]
  · rw [state]
    rfl

/-- A call that is refused leaves the stack alone, and any other pushes the frame of its site. -/
theorem shadow_call (engine : Engine κ) (site ret : GuestAddr) :
    (∃ fault, (engine.call site ret).value = .error fault ∧
      (engine.call site ret).state.ctx.shadow = engine.ctx.shadow) ∨
    (∃ called, (engine.call site ret).value = .ok called ∧
      (engine.call site ret).state.ctx.shadow = (engine.ctx.shadow.push called.frame).1) := by
  have prepared := engine.ctx.shadow_prepare engine.registry ret
  rcases engine.call_cases site ret with
    ⟨known, -, called⟩ | ⟨fault, -, -, value, state⟩ | ⟨fresh, -, -, value, state⟩
  · refine Or.inr ⟨known, ?_, ?_⟩
    · rw [called]
      rfl
    · rw [called, (runCall_eq engine known).2, Context.state_push]
      rfl
  · refine Or.inl ⟨fault, value, ?_⟩
    rw [state]
    exact prepared
  · refine Or.inr ⟨fresh, value, ?_⟩
    rw [state, (runCall_eq _ fresh).2, Context.state_push, ← prepared]
    rfl

/-- A call that is not refused runs the site that is remembered for it, or one that is compiled for
its return address. Either way that site is remembered afterwards, and its frame is pushed. -/
theorem of_call {site ret : GuestAddr} {called : CallSite}
    (succeeds : (engine.call site ret).value = .ok called) :
    (engine.callSites.find? site = some called ∨
      engine.callSites.find? site = none ∧ called.ret = ret) ∧
    (engine.call site ret).state.callSites.find? site = some called ∧
    (engine.call site ret).state.ctx.shadow = (engine.ctx.shadow.push called.frame).1 := by
  have pushed : (engine.call site ret).state.ctx.shadow =
      (engine.ctx.shadow.push called.frame).1 := by
    rcases shadow_call engine site ret with ⟨_, refused, -⟩ | ⟨other, value, pushed⟩
    · cases refused.symm.trans succeeds
    · cases value.symm.trans succeeds
      exact pushed
  rcases engine.call_cases site ret with
    ⟨known, found, ran⟩ | ⟨_, -, -, refused, -⟩ | ⟨fresh, new, prepared, value, state⟩
  · rw [ran] at succeeds
    cases (runCall_eq engine known).1.symm.trans succeeds
    refine ⟨Or.inl found, ?_, pushed⟩
    rw [ran]
    exact found
  · cases refused.symm.trans succeeds
  · cases value.symm.trans succeeds
    refine ⟨Or.inr ⟨new, Context.ret_of_prepare prepared⟩, ?_, pushed⟩
    rw [state]
    exact (AddressMap.find?_insert engine.callSites site site called).trans (if_pos rfl)

/-- A call runs the site that is remembered. -/
theorem eq_of_call {site ret : GuestAddr} {called known : CallSite}
    (succeeds : (engine.call site ret).value = .ok called)
    (remembered : engine.callSites.find? site = some known) : called = known := by
  rcases (of_call succeeds).1 with same | ⟨new, -⟩
  · exact Option.some.inj (same.symm.trans remembered)
  · cases new.symm.trans remembered

/-- It runs a site for its own return address if the site is new, or was compiled for that. -/
theorem ret_eq_iff_of_call {site ret : GuestAddr} {called : CallSite}
    (succeeds : (engine.call site ret).value = .ok called) :
    called.ret = ret ↔
      ∀ known, engine.callSites.find? site = some known → known.ret = ret := by
  constructor
  · intro returns known remembered
    rw [← eq_of_call succeeds remembered]
    exact returns
  · intro agree
    rcases (of_call succeeds).1 with same | ⟨-, returns⟩
    · exact agree called same
    · exact returns

/-- A return does to the stack what its pop does. -/
theorem shadow_ret (compile : Compile κ) (engine : Engine κ) (actual : GuestAddr) :
    (ret compile engine actual).state.ctx.shadow = (engine.ctx.pop actual).state.shadow := by
  rcases ret_cases compile engine actual with ⟨_, -, -, state⟩ | ⟨-, -, state⟩
  · rw [state]
    rfl
  · rw [state]
    exact shadow_resolve compile _ actual

/-- A jump leaves the stack alone. -/
theorem shadow_jump (compile : Compile κ) (engine : Engine κ) (target : GuestAddr) :
    (jump compile engine target).state.ctx.shadow = engine.ctx.shadow := by
  have looked : (engine.ctx.lookupTarget target).state.shadow = engine.ctx.shadow := by
    rcases engine.ctx.lookupTarget_cases target with ⟨_, -, -, state⟩ | ⟨-, -, state⟩
    · rw [state]
    · rw [state]
  have slow := shadow_resolve compile
    (engine.withContext (engine.ctx.lookupTarget target).state) target
  rcases jump_cases compile engine target with
    ⟨-, -, state⟩ | ⟨-, _, rfl, ⟨_, -, -, state⟩ | ⟨_, -, -, state⟩⟩
  · rw [state]
    exact looked
  · rw [state]
    exact slow.trans looked
  · rw [state]
    exact slow.trans looked

end TransferCache.Engine
