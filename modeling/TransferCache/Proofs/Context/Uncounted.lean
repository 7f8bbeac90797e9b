import TransferCache.Proofs.Context.Steps

/-!
# Counts that compiled code does not keep

Compiled code pushes and pops with plain loads and stores, so four counters stay as they are when it
runs. `Context.uncounted` sets them to zero. Every other protocol neither reads nor writes them, and
a push or a pop is determined, apart from them, by what it does to the shadow stack.
-/

namespace TransferCache.Context

/-- The context without the counts of pushes and of the three outcomes of pops. -/
def uncounted (ctx : Context) : Context :=
  { ctx with
    stats :=
      { ctx.stats with
        shadowPushes := 0
        shadowHits := 0
        shadowMismatches := 0
        shadowUnresolved := 0 } }

variable {ctx : Context}

@[simp] theorem shadow_uncounted (ctx : Context) : ctx.uncounted.shadow = ctx.shadow := rfl

@[simp] theorem slots_uncounted (ctx : Context) : ctx.uncounted.slots = ctx.slots := rfl

@[simp] theorem targets_uncounted (ctx : Context) : ctx.uncounted.targets = ctx.targets := rfl

theorem uncounted_ofConfig (config : Config) :
    (ofConfig config).uncounted = ofConfig config := rfl

/-! ## Protocols that leave the counts alone -/

theorem prepare_uncounted (ctx : Context) (registry : Registry) (ret : GuestAddr) :
    ctx.uncounted.prepare registry ret = (ctx.prepare registry ret).within uncounted := by
  unfold prepare
  rw [slots_uncounted]
  cases ctx.slots.alloc with
  | error fault => rfl
  | ok handed => cases registry.lookup ret <;> rfl

theorem flushStack_uncounted (ctx : Context) :
    ctx.uncounted.flushStack = ctx.flushStack.within uncounted := rfl

theorem completeLinks_uncounted (ctx : Context) (block : Block) :
    ctx.uncounted.completeLinks block = (ctx.completeLinks block).within uncounted := rfl

theorem lookupTarget_uncounted (ctx : Context) (target : GuestAddr) :
    ctx.uncounted.lookupTarget target = (ctx.lookupTarget target).within uncounted := by
  unfold lookupTarget
  rw [targets_uncounted]
  cases ctx.targets.lookup target <;> rfl

theorem updateTarget_uncounted (ctx : Context) (block : Block) :
    ctx.uncounted.updateTarget block = (ctx.updateTarget block).within uncounted := rfl

theorem reset_uncounted (ctx : Context) : ctx.uncounted.reset = ctx.reset.within uncounted := rfl

/-! ## Pushes and pops -/

theorem state_push_uncounted (ctx : Context) (site : CallSite) :
    (ctx.push site).state.uncounted =
      { (if (ctx.shadow.push site.frame).2 then ctx.uncounted.noteOverflow.state
          else ctx.uncounted) with
        shadow := (ctx.shadow.push site.frame).1 } := by
  rw [state_push]
  cases (ctx.shadow.push site.frame).2 <;> rfl

/-- A pop that does not match leads nowhere and changes nothing else. -/
theorem pop_uncounted_of_mismatch {actual : GuestAddr}
    (missed : ctx.shadow.isEmpty = true ∨ ctx.shadow.peek.expected ≠ actual) :
    (ctx.pop actual).value.target? = none ∧
      (ctx.pop actual).state.uncounted = ctx.uncounted := by
  unfold pop
  rw [if_pos missed]
  exact ⟨rfl, rfl⟩

/-- A pop that matches leads to the host code in the slot, if there is any, and pops the stack. -/
theorem pop_uncounted_of_match {actual : GuestAddr}
    (matched : ¬(ctx.shadow.isEmpty = true ∨ ctx.shadow.peek.expected ≠ actual)) :
    (ctx.pop actual).value.target? =
        (if (ctx.slots.value ctx.shadow.peek.slot).isUnresolved then none
          else some (ctx.slots.value ctx.shadow.peek.slot)) ∧
      (ctx.pop actual).state.uncounted = { ctx.uncounted with shadow := ctx.shadow.pop } := by
  unfold pop
  rw [if_neg matched]
  dsimp only
  split
  · exact ⟨rfl, rfl⟩
  · exact ⟨rfl, rfl⟩

end TransferCache.Context
