import TransferCache.Proofs.Context.Dimensions
import TransferCache.Proofs.Shadow.Bounds

/-!
# What compiled code can change in a context

Compiled code stores to the shadow stack and calls three helpers. `Context.Confined` lists what is
left alone by all of them: everything but the frames, the top and the live count of the stack, four
counters that only grow, and a pending update, which may be raised but not cleared. A stack that was
in bounds is in bounds afterwards.

From then on no protocol takes the stack out of its bounds (`Reaches.keepsBounds`).
-/

namespace TransferCache.Context

variable {ctx : Context}

/-- The later context differs from the earlier one at most in its stack, which is in bounds if it
was, in an update that has become pending, and in the counts that helpers keep. -/
structure Confined (before after : Context) : Prop where
  shadow : before.shadow.KeepsBounds after.shadow
  slots_eq : after.slots = before.slots
  links_eq : after.links = before.links
  targets_eq : after.targets = before.targets
  stub_eq : after.stub = before.stub
  traceTransfers_eq : after.traceTransfers = before.traceTransfers
  updatePending : before.updatePending = true → after.updatePending = true
  stats : ∃ overflows flushes hits misses,
    after.stats =
      { before.stats with
        shadowOverflows := before.stats.shadowOverflows + overflows
        shadowFlushes := before.stats.shadowFlushes + flushes
        targetHits := before.stats.targetHits + hits
        targetMisses := before.stats.targetMisses + misses }

theorem Confined.refl (ctx : Context) : ctx.Confined ctx :=
  ⟨.refl ctx.shadow, rfl, rfl, rfl, rfl, rfl, id, 0, 0, 0, 0, rfl⟩

theorem Confined.trans {before middle after : Context} (first : before.Confined middle)
    (second : middle.Confined after) : before.Confined after where
  shadow := first.shadow.trans second.shadow
  slots_eq := second.slots_eq.trans first.slots_eq
  links_eq := second.links_eq.trans first.links_eq
  targets_eq := second.targets_eq.trans first.targets_eq
  stub_eq := second.stub_eq.trans first.stub_eq
  traceTransfers_eq := second.traceTransfers_eq.trans first.traceTransfers_eq
  updatePending := second.updatePending ∘ first.updatePending
  stats := by
    obtain ⟨overflows, flushes, hits, misses, early⟩ := first.stats
    obtain ⟨moreOverflows, moreFlushes, moreHits, moreMisses, late⟩ := second.stats
    refine ⟨overflows + moreOverflows, flushes + moreFlushes, hits + moreHits,
      misses + moreMisses, ?_⟩
    rw [late, early]
    simp only [Nat.add_assoc]

/-! ## Stores and helpers -/

theorem confined_withShadow {shadow : ShadowStack} (kept : ctx.shadow.KeepsBounds shadow) :
    ctx.Confined { ctx with shadow } :=
  ⟨kept, rfl, rfl, rfl, rfl, rfl, id, 0, 0, 0, 0, rfl⟩

theorem confined_noteOverflow (ctx : Context) : ctx.Confined ctx.noteOverflow.state :=
  ⟨.refl ctx.shadow, rfl, rfl, rfl, rfl, rfl, id, 1, 0, 0, 0, rfl⟩

theorem confined_flushStack (ctx : Context) : ctx.Confined ctx.flushStack.state :=
  ⟨ctx.shadow.keepsBounds_flush, rfl, rfl, rfl, rfl, rfl, id, 0, 1, 0, 0, rfl⟩

theorem confined_lookupTarget (ctx : Context) (target : GuestAddr) :
    ctx.Confined (ctx.lookupTarget target).state := by
  rcases ctx.lookupTarget_cases target with ⟨_, -, -, state⟩ | ⟨-, -, state⟩
  · rw [state]
    exact ⟨.refl ctx.shadow, rfl, rfl, rfl, rfl, rfl, id, 0, 0, 1, 0, rfl⟩
  · rw [state]
    exact ⟨.refl ctx.shadow, rfl, rfl, rfl, rfl, rfl, fun _ => rfl, 0, 0, 0, 1, rfl⟩

/-! ## Protocols -/

theorem keepsBounds_push (ctx : Context) (site : CallSite) :
    ctx.shadow.KeepsBounds (ctx.push site).state.shadow := by
  rw [state_push]
  exact ctx.shadow.keepsBounds_push site.frame

theorem keepsBounds_pop (ctx : Context) (actual : GuestAddr) :
    ctx.shadow.KeepsBounds (ctx.pop actual).state.shadow := by
  obtain ⟨_, _, _, _, rfl | rfl, state⟩ := ctx.state_pop actual
  · rw [state]
    exact .refl ctx.shadow
  · rw [state]
    exact ctx.shadow.keepsBounds_pop

/-- No protocol takes the stack out of its bounds, whatever it finds there. -/
theorem Reaches.keepsBounds {earlier later : Context} (reached : earlier.Reaches later) :
    earlier.shadow.KeepsBounds later.shadow := by
  induction reached with
  | refl => exact .refl _
  | @prepare ctx registry ret _ ih =>
    rw [shadow_prepare]
    exact ih
  | push site _ ih => exact ih.trans (keepsBounds_push _ site)
  | pop actual _ ih => exact ih.trans (keepsBounds_pop _ actual)
  | flushStack _ ih => exact ih.trans (ShadowStack.keepsBounds_flush _)
  | completeLinks block _ ih => exact ih
  | @lookupTarget ctx target _ ih => exact ih.trans (ctx.confined_lookupTarget target).shadow
  | updateTarget block _ ih => exact ih
  | reset _ ih => exact ih.trans (ShadowStack.keepsBounds_flush _)

end TransferCache.Context
