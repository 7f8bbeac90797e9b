import TransferCache.Proofs.Context.Steps

/-!
# What no protocol changes

How large the parts of a context are, its policy, its stub and its switches are settled when it is
created. `Context.blank` is all of that and nothing else: the context as it would be if nothing had
ever been done to it. No protocol changes it, so neither does any sequence of protocols
(`Context.Reaches`), and the context of an engine is only ever changed by protocols
(`Engine.reaches_run`).

* `Context.Reaches.blank_eq`: a context keeps its blank.
* `Engine.blank_run`: so does an engine, however it is used.
-/

namespace TransferCache

namespace ShadowStack

/-- The stack as it was created. -/
def blank (stack : ShadowStack) : ShadowStack := .ofCapacity stack.capacity stack.policy

@[simp] theorem blank_push (stack : ShadowStack) (frame : Frame) :
    (stack.push frame).1.blank = stack.blank := by
  unfold blank
  rw [capacity_push]
  rfl

@[simp] theorem blank_pop (stack : ShadowStack) : stack.pop.blank = stack.blank := by
  unfold blank
  rw [capacity_pop, policy_pop]

theorem capacity_eq_of_blank_eq {stack other : ShadowStack} (same : stack.blank = other.blank) :
    stack.capacity = other.capacity := by
  have capacities := congrArg ShadowStack.capacity same
  unfold blank at capacities
  rwa [capacity_ofCapacity, capacity_ofCapacity] at capacities

theorem policy_eq_of_blank_eq {stack other : ShadowStack} (same : stack.blank = other.blank) :
    stack.policy = other.policy := by
  have policies : stack.blank.policy = other.blank.policy := congrArg ShadowStack.policy same
  exact policies

end ShadowStack

namespace WaitingLinks

@[simp] theorem clear_setBucket (links : WaitingLinks) (guest : GuestAddr)
    (bucket : List Waiter) : (links.setBucket guest bucket).clear = links.clear := by
  unfold clear setBucket
  simp only [Array.size_setIfInBounds]

@[simp] theorem clear_clear (links : WaitingLinks) : links.clear.clear = links.clear := by
  unfold clear
  simp only [Array.size_replicate]

theorem clear_ofBits (bits : Nat) : (ofBits bits).clear = ofBits bits := by
  unfold clear ofBits
  simp only [Array.size_replicate]

end WaitingLinks

namespace TargetCache

@[simp] theorem clear_update (cache : TargetCache) (block : Block) :
    (cache.update block).clear = cache.clear := by
  unfold clear update size
  simp only [Array.size_setIfInBounds]

@[simp] theorem clear_clear (cache : TargetCache) : cache.clear.clear = cache.clear := by
  unfold clear size
  simp only [Array.size_replicate]

theorem clear_ofBits (bits : Nat) : (ofBits bits).clear = ofBits bits := by
  unfold clear ofBits size
  simp only [Array.size_replicate]

end TargetCache

namespace SlotArray

theorem clear_eq_of_capacity_eq {slots other : SlotArray} (same : slots.capacity = other.capacity) :
    slots.clear = other.clear :=
  congrArg ofCapacity same

end SlotArray

namespace Context

/-- The context as it was created, but for its stub. -/
def blank (ctx : Context) : Context where
  shadow := ctx.shadow.blank
  slots := ctx.slots.clear
  links := ctx.links.clear
  targets := ctx.targets.clear
  updatePending := false
  stub := ctx.stub
  traceTransfers := ctx.traceTransfers
  stats := {}

theorem blank_ofConfig (config : Config) : (ofConfig config).blank = ofConfig config := by
  unfold blank ofConfig ShadowStack.blank
  rw [ShadowStack.capacity_ofCapacity, WaitingLinks.clear_ofBits, TargetCache.clear_ofBits]
  rw [SlotArray.clear, SlotArray.capacity_ofCapacity]
  rfl

/-- Contexts are equally blank if their parts are. -/
theorem blank_congr {ctx other : Context} (shadow : ctx.shadow.blank = other.shadow.blank)
    (slots : ctx.slots.capacity = other.slots.capacity)
    (links : ctx.links.clear = other.links.clear)
    (targets : ctx.targets.clear = other.targets.clear) (stub : ctx.stub = other.stub)
    (traces : ctx.traceTransfers = other.traceTransfers) : ctx.blank = other.blank := by
  unfold blank
  rw [shadow, SlotArray.clear_eq_of_capacity_eq slots, links, targets, stub, traces]

/-! ## The protocols -/

/-- The later context is reached from the earlier one by protocols. -/
inductive Reaches (earlier : Context) : Context → Prop
  | refl : Reaches earlier earlier
  | prepare {ctx : Context} (registry : Registry) (ret : GuestAddr)
    (reached : Reaches earlier ctx) : Reaches earlier (ctx.prepare registry ret).state
  | push {ctx : Context} (site : CallSite) (reached : Reaches earlier ctx) :
    Reaches earlier (ctx.push site).state
  | pop {ctx : Context} (actual : GuestAddr) (reached : Reaches earlier ctx) :
    Reaches earlier (ctx.pop actual).state
  | flushStack {ctx : Context} (reached : Reaches earlier ctx) :
    Reaches earlier ctx.flushStack.state
  | completeLinks {ctx : Context} (block : Block) (reached : Reaches earlier ctx) :
    Reaches earlier (ctx.completeLinks block).state
  | lookupTarget {ctx : Context} (target : GuestAddr) (reached : Reaches earlier ctx) :
    Reaches earlier (ctx.lookupTarget target).state
  | updateTarget {ctx : Context} (block : Block) (reached : Reaches earlier ctx) :
    Reaches earlier (ctx.updateTarget block).state
  | reset {ctx : Context} (reached : Reaches earlier ctx) : Reaches earlier ctx.reset.state

theorem Reaches.trans {first second third : Context} (early : first.Reaches second)
    (late : second.Reaches third) : first.Reaches third := by
  induction late with
  | refl => exact early
  | prepare registry ret _ ih => exact .prepare registry ret ih
  | push site _ ih => exact .push site ih
  | pop actual _ ih => exact .pop actual ih
  | flushStack _ ih => exact .flushStack ih
  | completeLinks block _ ih => exact .completeLinks block ih
  | lookupTarget target _ ih => exact .lookupTarget target ih
  | updateTarget block _ ih => exact .updateTarget block ih
  | reset _ ih => exact .reset ih

theorem blank_prepare (ctx : Context) (registry : Registry) (ret : GuestAddr) :
    (ctx.prepare registry ret).state.blank = ctx.blank := by
  rcases ctx.prepare_cases registry ret with
    ⟨-, -, state⟩ | ⟨-, _, block, -, -, state⟩ | ⟨-, -, -, state⟩
  · rw [state]
  · rw [state]
    exact blank_congr rfl (SlotArray.capacity_resolve _ _ _) rfl rfl rfl rfl
  · rw [state]
    exact blank_congr rfl rfl (WaitingLinks.clear_setBucket _ _ _) rfl rfl rfl

theorem blank_push (ctx : Context) (site : CallSite) : (ctx.push site).state.blank = ctx.blank := by
  rw [state_push]
  exact blank_congr (ctx.shadow.blank_push site.frame) rfl rfl rfl rfl rfl

theorem blank_pop (ctx : Context) (actual : GuestAddr) :
    (ctx.pop actual).state.blank = ctx.blank := by
  obtain ⟨_, _, _, _, rfl | rfl, state⟩ := ctx.state_pop actual
  · rw [state]
    rfl
  · rw [state]
    exact blank_congr ctx.shadow.blank_pop rfl rfl rfl rfl rfl

theorem blank_completeLinks (ctx : Context) (block : Block) :
    (ctx.completeLinks block).state.blank = ctx.blank := by
  rw [(ctx.completeLinks_eq block).2]
  exact blank_congr rfl (SlotArray.capacity_resolveAll _ _ _) (WaitingLinks.clear_setBucket _ _ _)
    rfl rfl rfl

theorem blank_lookupTarget (ctx : Context) (target : GuestAddr) :
    (ctx.lookupTarget target).state.blank = ctx.blank := by
  rcases ctx.lookupTarget_cases target with ⟨_, -, -, state⟩ | ⟨-, -, state⟩
  · rw [state]
    rfl
  · rw [state]
    rfl

theorem blank_updateTarget (ctx : Context) (block : Block) :
    (ctx.updateTarget block).state.blank = ctx.blank :=
  blank_congr rfl rfl rfl (TargetCache.clear_update _ _) rfl rfl

theorem blank_reset (ctx : Context) : ctx.reset.state.blank = ctx.blank :=
  blank_congr rfl (SlotArray.capacity_clear _) (WaitingLinks.clear_clear _)
    (TargetCache.clear_clear _) rfl rfl

/-- Protocols leave the blank of a context as it is. -/
theorem Reaches.blank_eq {earlier later : Context} (reached : earlier.Reaches later) :
    later.blank = earlier.blank := by
  induction reached with
  | refl => rfl
  | prepare registry ret _ ih => exact (blank_prepare _ registry ret).trans ih
  | push site _ ih => exact (blank_push _ site).trans ih
  | pop actual _ ih => exact (blank_pop _ actual).trans ih
  | flushStack _ ih => exact ih
  | completeLinks block _ ih => exact (blank_completeLinks _ block).trans ih
  | lookupTarget target _ ih => exact (blank_lookupTarget _ target).trans ih
  | updateTarget block _ ih => exact (blank_updateTarget _ block).trans ih
  | reset _ ih => exact (blank_reset _).trans ih

theorem Reaches.capacity_eq {earlier later : Context} (reached : earlier.Reaches later) :
    later.shadow.capacity = earlier.shadow.capacity :=
  ShadowStack.capacity_eq_of_blank_eq (congrArg Context.shadow reached.blank_eq)

theorem Reaches.policy_eq {earlier later : Context} (reached : earlier.Reaches later) :
    later.shadow.policy = earlier.shadow.policy :=
  ShadowStack.policy_eq_of_blank_eq (congrArg Context.shadow reached.blank_eq)

end Context

end TransferCache
