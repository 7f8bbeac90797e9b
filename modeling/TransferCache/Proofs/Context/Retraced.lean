import TransferCache.Context.Protocol

/-!
# Tracing changes nothing but the log

Whether transfers are traced is a switch of the context (`Context.retraced` puts it in either
position) that only decides about events. Every protocol answers the same and leaves the same state,
but for the switch, whichever position that is in (`Outcome.Agrees`).
-/

namespace TransferCache

namespace Outcome

variable {σ α β : Type} {view : σ → σ} {outcome viewed : Outcome σ α}

/-- Apart from their events, one outcome is another with a view of the state in its place. -/
structure Agrees (view : σ → σ) (outcome viewed : Outcome σ α) : Prop where
  value_eq : viewed.value = outcome.value
  state_eq : viewed.state = view outcome.state

theorem Agrees.map (agrees : outcome.Agrees view viewed) (f : α → β) :
    (outcome.map f).Agrees view (viewed.map f) :=
  ⟨congrArg f agrees.value_eq, agrees.state_eq⟩

theorem Agrees.andThen (agrees : outcome.Agrees view viewed) {next : α → σ → Outcome σ β}
    (later : ∀ value state, (next value state).Agrees view (next value (view state))) :
    (outcome.andThen next).Agrees view (viewed.andThen next) := by
  have goesOn := later outcome.value outcome.state
  rw [← agrees.value_eq, ← agrees.state_eq] at goesOn
  have same : next viewed.value outcome.state = next outcome.value outcome.state := by
    rw [agrees.value_eq]
  rw [same] at goesOn
  exact ⟨goesOn.value_eq, goesOn.state_eq⟩

theorem Agrees.ite {condition : Prop} [Decidable condition] {other otherViewed : Outcome σ α}
    (holds : outcome.Agrees view viewed) (fails : other.Agrees view otherViewed) :
    (if condition then outcome else other).Agrees view
      (if condition then viewed else otherViewed) := by
  split
  · exact holds
  · exact fails

end Outcome

namespace Context

/-- The context with the switch for tracing in the given position. -/
def retraced (traces : Bool) (ctx : Context) : Context := { ctx with traceTransfers := traces }

variable (traces : Bool) (ctx : Context)

@[simp] theorem shadow_retraced : (ctx.retraced traces).shadow = ctx.shadow := rfl

@[simp] theorem slots_retraced : (ctx.retraced traces).slots = ctx.slots := rfl

@[simp] theorem targets_retraced : (ctx.retraced traces).targets = ctx.targets := rfl

theorem agrees_prepare (registry : Registry) (ret : GuestAddr) :
    (ctx.prepare registry ret).Agrees (retraced traces)
      ((ctx.retraced traces).prepare registry ret) := by
  unfold prepare
  rw [slots_retraced]
  cases ctx.slots.alloc with
  | error refusal => exact ⟨rfl, rfl⟩
  | ok handed => cases registry.lookup ret <;> exact ⟨rfl, rfl⟩

theorem agrees_push (site : CallSite) :
    (ctx.push site).Agrees (retraced traces) ((ctx.retraced traces).push site) := by
  unfold push
  rw [shadow_retraced]
  cases ctx.shadow.push ⟨site.ret, site.slot⟩ with
  | mk shadow overflowed => cases overflowed <;> exact ⟨rfl, rfl⟩

theorem agrees_pop (actual : GuestAddr) :
    (ctx.pop actual).Agrees (retraced traces) ((ctx.retraced traces).pop actual) := by
  unfold pop
  exact .ite ⟨rfl, rfl⟩ (.ite ⟨rfl, rfl⟩ ⟨rfl, rfl⟩)

theorem agrees_flushStack :
    ctx.flushStack.Agrees (retraced traces) (ctx.retraced traces).flushStack := ⟨rfl, rfl⟩

theorem agrees_completeLinks (block : Block) :
    (ctx.completeLinks block).Agrees (retraced traces)
      ((ctx.retraced traces).completeLinks block) := ⟨rfl, rfl⟩

theorem agrees_lookupTarget (target : GuestAddr) :
    (ctx.lookupTarget target).Agrees (retraced traces)
      ((ctx.retraced traces).lookupTarget target) := by
  unfold lookupTarget
  rw [targets_retraced]
  cases ctx.targets.lookup target <;> exact ⟨rfl, rfl⟩

theorem agrees_updateTarget (block : Block) :
    (ctx.updateTarget block).Agrees (retraced traces)
      ((ctx.retraced traces).updateTarget block) := ⟨rfl, rfl⟩

theorem agrees_reset : ctx.reset.Agrees (retraced traces) (ctx.retraced traces).reset :=
  ⟨rfl, rfl⟩

end Context

end TransferCache
