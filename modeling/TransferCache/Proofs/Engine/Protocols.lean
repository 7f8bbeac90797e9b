import TransferCache.Proofs.Context.Dimensions
import TransferCache.Proofs.Engine.Steps

/-!
# Engines use their contexts through protocols

An engine never opens its context: every operation is a sequence of protocols, with the registry and
the compiler in between. Two things follow. What protocols leave alone every operation leaves alone
(`reaches_step`). And what protocols cannot tell apart no operation can tell apart: if a context may
be replaced by a view of it in the protocols that an operation uses, then the operation may be
performed on the view (`resolve_viewed`, `call_viewed`, `ret_viewed`, `jump_viewed`).
-/

namespace TransferCache.Engine

open Context (Reaches)

variable {κ : Type} {compile : Compile κ} {engine : Engine κ}

/-! ## What operations do to the context -/

theorem reaches_resolve (compile : Compile κ) (engine : Engine κ) (guest : GuestAddr) :
    engine.ctx.Reaches (resolve compile engine guest).state.ctx := by
  rcases resolve_cases compile engine guest with
    ⟨_, -, -, state⟩ | ⟨-, -, -, state⟩ | ⟨host, -, -, -, state⟩
  · rw [state]
    exact .refl
  · rw [state]
    exact .refl
  · rw [state]
    exact .completeLinks ⟨guest, host⟩ .refl

theorem reaches_call (engine : Engine κ) (site ret : GuestAddr) :
    engine.ctx.Reaches (engine.call site ret).state.ctx := by
  have prepared : engine.ctx.Reaches (engine.ctx.prepare engine.registry ret).state :=
    .prepare engine.registry ret .refl
  rcases engine.call_cases site ret with
    ⟨known, -, called⟩ | ⟨_, -, -, -, state⟩ | ⟨fresh, -, -, -, state⟩
  · rw [called]
    exact .push known .refl
  · rw [state]
    exact prepared
  · rw [state]
    exact .push fresh prepared

theorem reaches_ret (compile : Compile κ) (engine : Engine κ) (actual : GuestAddr) :
    engine.ctx.Reaches (ret compile engine actual).state.ctx := by
  have popped : engine.ctx.Reaches (engine.ctx.pop actual).state := .pop actual .refl
  rcases ret_cases compile engine actual with ⟨_, -, -, state⟩ | ⟨-, -, state⟩
  · rw [state]
    exact popped
  · rw [state]
    exact popped.trans
      (reaches_resolve compile (engine.withContext (engine.ctx.pop actual).state) actual)

theorem reaches_jump (compile : Compile κ) (engine : Engine κ) (target : GuestAddr) :
    engine.ctx.Reaches (jump compile engine target).state.ctx := by
  have looked : engine.ctx.Reaches (engine.ctx.lookupTarget target).state :=
    .lookupTarget target .refl
  have slow := looked.trans
    (reaches_resolve compile (engine.withContext (engine.ctx.lookupTarget target).state) target)
  rcases jump_cases compile engine target with
    ⟨-, -, state⟩ | ⟨-, _, rfl, ⟨_, -, -, state⟩ | ⟨block, -, -, state⟩⟩
  · rw [state]
    exact looked
  · rw [state]
    exact slow
  · rw [state]
    exact .updateTarget block slow

theorem reaches_step (compile : Compile κ) (engine : Engine κ) (action : Action) :
    engine.ctx.Reaches (step compile engine action).state.ctx := by
  cases action with
  | register block => exact .completeLinks block .refl
  | resolve guest => exact reaches_resolve compile engine guest
  | call site ret => exact reaches_call engine site ret
  | ret actual => exact reaches_ret compile engine actual
  | jump target => exact reaches_jump compile engine target
  | flushCode => exact .reset .refl
  | flushStack => exact .flushStack .refl

theorem reaches_run (compile : Compile κ) (engine : Engine κ) (actions : List Action) :
    engine.ctx.Reaches (run compile engine actions).state.ctx := by
  induction actions generalizing engine with
  | nil => exact .refl
  | cons action actions ih => exact (reaches_step compile engine action).trans (ih _)

/-! ## Engines with another view of their context -/

/-- The engine with a view of its context in place of the context. -/
def viewed (view : Context → Context) (engine : Engine κ) : Engine κ :=
  engine.withContext (view engine.ctx)

section

variable {view after : Context → Context}

theorem register_viewed
    (completes : ∀ ctx block,
      (view ctx).completeLinks block = (ctx.completeLinks block).within view)
    (engine : Engine κ) (block : Block) :
    (engine.viewed view).register block = (engine.register block).within (viewed view) := by
  unfold register
  rw [show (engine.viewed view).ctx = view engine.ctx from rfl, completes]
  rfl

theorem resolve_viewed
    (completes : ∀ ctx block,
      (view ctx).completeLinks block = (ctx.completeLinks block).within view)
    (compile : Compile κ) (engine : Engine κ) (guest : GuestAddr) :
    resolve compile (engine.viewed view) guest =
      (resolve compile engine guest).within (viewed view) := by
  unfold resolve
  rw [show (engine.viewed view).registry = engine.registry from rfl]
  cases engine.registry.lookup guest with
  | some block => rfl
  | none =>
    simp only [show (engine.viewed view).compiler = engine.compiler from rfl]
    cases compiled : (compile engine.compiler guest).1 with
    | none => rfl
    | some host =>
      exact congrArg (Outcome.map _) (register_viewed completes
        { engine with compiler := (compile engine.compiler guest).2 } ⟨guest, host⟩)

/-- A refused call leaves the view as it is. Any other call pushes the frame of its site, which may
change how the context is viewed. -/
theorem call_viewed {pushed : CallSite → Context → Context} (site ret : GuestAddr)
    (prepares : (view engine.ctx).prepare engine.registry ret =
      (engine.ctx.prepare engine.registry ret).within view)
    (pushes : ∀ ctx called, ctx.shadow = engine.ctx.shadow →
      (view ctx).push called = (ctx.push called).within (pushed called)) :
    (∃ fault, (engine.call site ret).value = .error fault ∧
      (engine.viewed view).call site ret = (engine.call site ret).within (viewed view)) ∨
    (∃ called, (engine.call site ret).value = .ok called ∧
      (engine.viewed view).call site ret =
        (engine.call site ret).within (viewed (pushed called))) := by
  have runs : ∀ (started : Engine κ) called, started.ctx.shadow = engine.ctx.shadow →
      (started.viewed view).runCall called =
        (started.runCall called).within (viewed (pushed called)) := by
    intro started called same
    unfold runCall
    rw [show (started.viewed view).ctx = view started.ctx from rfl, pushes _ called same]
    rfl
  have unchanged := engine.ctx.shadow_prepare engine.registry ret
  unfold call
  rw [show (engine.viewed view).callSites = engine.callSites from rfl]
  cases engine.callSites.find? site with
  | some known => exact Or.inr ⟨known, rfl, runs engine known rfl⟩
  | none =>
    have started : ((engine.viewed view).ctx.prepare (engine.viewed view).registry ret).within
        (engine.viewed view).withContext =
          ((engine.ctx.prepare engine.registry ret).within engine.withContext).within
            (viewed view) := congrArg (Outcome.within _) prepares
    simp only [started]
    cases prepared : (engine.ctx.prepare engine.registry ret).value with
    | error fault =>
      refine Or.inl ⟨fault, ?_, Outcome.andThen_within ?_⟩
      · simp only [Outcome.value_andThen, Outcome.value_within, prepared]
      · simp only [Outcome.value_within, prepared]
        rfl
    | ok fresh =>
      refine Or.inr ⟨fresh, ?_, Outcome.andThen_within ?_⟩
      · simp only [Outcome.value_andThen, Outcome.value_within, prepared]
        rfl
      · simp only [Outcome.value_within, prepared]
        exact runs { engine.withContext (engine.ctx.prepare engine.registry ret).state with
          callSites := engine.callSites.insert site fresh } fresh unchanged

/-- A pop may change how the context is viewed. -/
theorem ret_viewed {actual : GuestAddr}
    (pops : (view engine.ctx).pop actual = (engine.ctx.pop actual).within after)
    (completes : ∀ ctx block,
      (after ctx).completeLinks block = (ctx.completeLinks block).within after)
    (compile : Compile κ) :
    ret compile (engine.viewed view) actual =
      (ret compile engine actual).within (viewed after) := by
  have started : ((engine.viewed view).ctx.pop actual).within (engine.viewed view).withContext =
      ((engine.ctx.pop actual).within engine.withContext).within (viewed after) :=
    congrArg (Outcome.within _) pops
  unfold ret
  rw [started]
  apply Outcome.andThen_within
  simp only [Outcome.value_within]
  cases (engine.ctx.pop actual).value.target? with
  | some host => rfl
  | none => exact congrArg (Outcome.map _) (resolve_viewed completes compile _ actual)

theorem jump_viewed
    (looks : ∀ ctx target, (view ctx).lookupTarget target = (ctx.lookupTarget target).within view)
    (completes : ∀ ctx block,
      (view ctx).completeLinks block = (ctx.completeLinks block).within view)
    (updates : ∀ ctx block, (view ctx).updateTarget block = (ctx.updateTarget block).within view)
    (pending : ∀ ctx, (view ctx).updatePending = ctx.updatePending)
    (compile : Compile κ) (engine : Engine κ) (target : GuestAddr) :
    jump compile (engine.viewed view) target =
      (jump compile engine target).within (viewed view) := by
  have started : ((engine.viewed view).ctx.lookupTarget target).within
      (engine.viewed view).withContext =
        ((engine.ctx.lookupTarget target).within engine.withContext).within (viewed view) :=
    congrArg (Outcome.within _) (looks engine.ctx target)
  unfold jump
  rw [started]
  apply Outcome.andThen_within
  simp only [Outcome.value_within, Outcome.state_within]
  by_cases raised : (engine.ctx.lookupTarget target).state.updatePending = true
  · have seen : (view (engine.ctx.lookupTarget target).state).updatePending = true :=
      (pending _).trans raised
    refine (if_pos seen).trans (Eq.trans ?_ (congrArg (Outcome.within _) (if_pos raised)).symm)
    rw [resolve_viewed completes]
    apply Outcome.andThen_within
    cases (resolve compile
      (engine.withContext (engine.ctx.lookupTarget target).state) target).value with
    | error fault => rfl
    | ok block => exact congrArg (Outcome.map _ ∘ Outcome.within _) (updates _ block)
  · have seen : ¬(view (engine.ctx.lookupTarget target).state).updatePending = true :=
      fun set => raised ((pending _).symm.trans set)
    refine (if_neg seen).trans (Eq.trans ?_ (congrArg (Outcome.within _) (if_neg raised)).symm)
    rfl

end

end TransferCache.Engine
