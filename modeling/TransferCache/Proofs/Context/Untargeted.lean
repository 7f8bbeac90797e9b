import TransferCache.Proofs.Context.Steps

/-!
# Contexts that differ in their target caches

A target cache with more index bits keeps apart whatever a smaller one keeps apart. So if it has
seen every block that the smaller one has seen, it `Subsumes` the smaller one: every target cached
there is cached here, though possibly with other host code. That is kept when both store the same
block, and when only the smaller one stores a block for a target that the larger one has cached.

Only lookups, updates and resets concern the target cache. `Context.untargeted` leaves out all that
they change, and every other protocol does to the view what it does to the context.
-/

namespace TransferCache

/-- Addresses that agree on their low-order bits agree on fewer of them. -/
theorem GuestAddr.lowBits_eq_of_le {first second : GuestAddr} {fewer more : Nat}
    (enough : fewer ≤ more) (agree : first.lowBits more = second.lowBits more) :
    first.lowBits fewer = second.lowBits fewer := by
  have divides : tableSize fewer ∣ tableSize more := by
    rw [tableSize, tableSize, Nat.one_shiftLeft, Nat.one_shiftLeft]
    exact Nat.pow_dvd_pow 2 enough
  unfold lowBits at agree ⊢
  rw [← Nat.mod_mod_of_dvd _ divides, agree, Nat.mod_mod_of_dvd _ divides]

namespace TargetCache

variable {wide narrow : TargetCache}

/-- The wide cache has at least as many index bits, and whatever target the narrow one has cached.
-/
structure Subsumes (wide narrow : TargetCache) : Prop where
  wide_sized : wide.Sized
  narrow_sized : narrow.Sized
  bits_le : narrow.bits ≤ wide.bits
  cached : ∀ target, narrow.lookup target ≠ none → wide.lookup target ≠ none

theorem subsumes_ofBits {fewer more : Nat} (enough : fewer ≤ more) :
    (ofBits more).Subsumes (ofBits fewer) where
  wide_sized := sized_ofBits more
  narrow_sized := sized_ofBits fewer
  bits_le := enough
  cached := fun target found => absurd (lookup_ofBits fewer target) found

theorem Subsumes.clear (subsumes : wide.Subsumes narrow) : wide.clear.Subsumes narrow.clear where
  wide_sized := subsumes.wide_sized.clear
  narrow_sized := subsumes.narrow_sized.clear
  bits_le := subsumes.bits_le
  cached := fun target found => absurd (lookup_clear narrow target) found

/-- Whatever a block displaces from the wide cache it displaces from the narrow one. -/
theorem Subsumes.update (subsumes : wide.Subsumes narrow) (block : Block) :
    (wide.update block).Subsumes (narrow.update block) where
  wide_sized := subsumes.wide_sized.update block
  narrow_sized := subsumes.narrow_sized.update block
  bits_le := subsumes.bits_le
  cached := by
    intro target
    rw [lookup_update subsumes.wide_sized, lookup_update subsumes.narrow_sized]
    by_cases here : block.guest = target
    · rw [if_pos here, if_pos here]
      exact id
    · rw [if_neg here, if_neg here]
      by_cases meets : wide.index block.guest = wide.index target
      · have displaced : narrow.index block.guest = narrow.index target :=
          GuestAddr.lowBits_eq_of_le subsumes.bits_le meets
        rw [if_pos displaced]
        exact fun found => absurd rfl found
      · rw [if_neg meets]
        split
        · exact fun found => absurd rfl found
        · exact subsumes.cached target

/-- A target that the wide cache has cached may be stored in the narrow one alone. -/
theorem Subsumes.update_narrow (subsumes : wide.Subsumes narrow) {block : Block}
    (known : wide.lookup block.guest ≠ none) : wide.Subsumes (narrow.update block) where
  wide_sized := subsumes.wide_sized
  narrow_sized := subsumes.narrow_sized.update block
  bits_le := subsumes.bits_le
  cached := by
    intro target
    rw [lookup_update subsumes.narrow_sized]
    split
    · next here => exact fun _ => here ▸ known
    · split
      · exact fun found => absurd rfl found
      · exact subsumes.cached target

end TargetCache

namespace Context

/-- The context without cached targets, without a pending update and without the counts of lookups
and updates. -/
def untargeted (ctx : Context) : Context :=
  { ctx with
    targets := .ofBits 0
    updatePending := false
    stats :=
      { ctx.stats with
        targetHits := 0, targetMisses := 0, targetUpdates := 0, targetEvictions := 0 } }

@[simp] theorem shadow_untargeted (ctx : Context) : ctx.untargeted.shadow = ctx.shadow := rfl

@[simp] theorem slots_untargeted (ctx : Context) : ctx.untargeted.slots = ctx.slots := rfl

/-! ## Protocols that leave the target cache alone -/

theorem prepare_untargeted (ctx : Context) (registry : Registry) (ret : GuestAddr) :
    ctx.untargeted.prepare registry ret = (ctx.prepare registry ret).within untargeted := by
  unfold prepare
  rw [slots_untargeted]
  cases ctx.slots.alloc with
  | error fault => rfl
  | ok handed => cases registry.lookup ret <;> rfl

theorem push_untargeted (ctx : Context) (site : CallSite) :
    ctx.untargeted.push site = (ctx.push site).within untargeted := by
  unfold push
  rw [shadow_untargeted]
  rcases ctx.shadow.push ⟨site.ret, site.slot⟩ with ⟨shadow, _ | _⟩
  · rfl
  · rfl

theorem pop_untargeted (ctx : Context) (actual : GuestAddr) :
    ctx.untargeted.pop actual = (ctx.pop actual).within untargeted := by
  unfold pop
  rw [shadow_untargeted, slots_untargeted]
  dsimp only
  split
  · rfl
  · split <;> rfl

theorem completeLinks_untargeted (ctx : Context) (block : Block) :
    ctx.untargeted.completeLinks block = (ctx.completeLinks block).within untargeted := rfl

/-! ## Lookups and resets -/

@[simp] theorem untargeted_lookupTarget (ctx : Context) (target : GuestAddr) :
    (ctx.lookupTarget target).state.untargeted = ctx.untargeted := by
  rcases ctx.lookupTarget_cases target with ⟨_, -, -, state⟩ | ⟨-, -, state⟩
  · rw [state]
    rfl
  · rw [state]
    rfl

@[simp] theorem untargeted_updateTarget (ctx : Context) (block : Block) :
    (ctx.updateTarget block).state.untargeted = ctx.untargeted := rfl

end Context

end TransferCache
