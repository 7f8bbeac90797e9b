import Mathlib.Data.Finset.Card
import Mathlib.Data.List.DropRight
import TransferCache.TargetCache

/-!
# A target cache holds the last updates

Each index of a target cache holds the last block that was stored there since the cache was cleared,
whatever was stored before. A lookup reads the index that the low-order bits of its target name, and
takes what it finds only if it was stored for exactly that target.

* `blockAt?_run`: what stands at an index is the last update whose address has it as low-order bits.
* `card_occupied_run`: an index is taken by an update that displaces nothing and refreshes nothing.
* `run_holds_lastUpdate`: all of it for every run of an empty cache.
-/

namespace TransferCache

/-! ## Low-order bits -/

/-- The addresses have the same low-order bits, so many of them. -/
def GuestAddr.AgreeBelow (bits : Nat) (first second : GuestAddr) : Prop :=
  ∀ position < bits, first.word.toNat.testBit position = second.word.toNat.testBit position

instance (bits : Nat) (first second : GuestAddr) : Decidable (first.AgreeBelow bits second) :=
  inferInstanceAs (Decidable (∀ position < bits, _ = _))

/-- Addresses have the same index exactly if they have the same low-order bits. -/
theorem GuestAddr.lowBits_eq_iff {bits : Nat} {first second : GuestAddr} :
    first.lowBits bits = second.lowBits bits ↔ first.AgreeBelow bits second := by
  unfold lowBits
  rw [tableSize, Nat.one_shiftLeft]
  constructor
  · intro same position below
    have bit := congrArg (·.testBit position) same
    simpa [below] using bit
  · intro agree
    refine Nat.eq_of_testBit_eq fun position => ?_
    rw [Nat.testBit_mod_two_pow, Nat.testBit_mod_two_pow]
    by_cases below : position < bits
    · rw [agree position below]
    · simp [below]

/-! ## Updates -/

/-- An operation of a target cache. -/
inductive CacheAction where
  | update (block : Block)
  | clear
  deriving DecidableEq, Repr

namespace CacheAction

/-- The block that an operation stores. -/
def stored? : CacheAction → Option Block
  | .update block => some block
  | .clear => none

/-- The last block stored for one of the chosen addresses, after the last operation that cleared
everything. -/
def lastUpdate (chosen : GuestAddr → Prop) [DecidablePred chosen] (actions : List CacheAction) :
    Option Block :=
  (((actions.rtakeWhile (· ≠ .clear)).filterMap stored?).filter
    fun block => chosen block.guest).getLast?

section

variable (chosen : GuestAddr → Prop) [DecidablePred chosen] (actions : List CacheAction)

theorem lastUpdate_concat_update (block : Block) :
    lastUpdate chosen (actions ++ [.update block]) =
      if chosen block.guest then some block else lastUpdate chosen actions := by
  unfold lastUpdate
  rw [List.rtakeWhile_concat_pos _ _ _ (by simp), List.filterMap_append, List.filter_append]
  change (_ ++ [block].filter _).getLast? = _
  rw [List.filter_singleton]
  by_cases mine : chosen block.guest
  · simp [mine]
  · simp [mine]

theorem chosen_of_lastUpdate {chosen : GuestAddr → Prop} [DecidablePred chosen]
    {actions : List CacheAction} {block : Block} (last : lastUpdate chosen actions = some block) :
    chosen block.guest :=
  of_decide_eq_true (List.mem_filter.1 (List.mem_of_getLast? last)).2

theorem lastUpdate_concat_clear : lastUpdate chosen (actions ++ [.clear]) = none := by
  unfold lastUpdate
  rw [List.rtakeWhile_concat_neg _ _ _ (by simp)]
  rfl

end

end CacheAction

namespace TargetCache

/-- One operation: the block it displaces, and the cache after it. -/
def step (cache : TargetCache) : CacheAction → Option Block × TargetCache
  | .update block => (cache.displacedBy block, cache.update block)
  | .clear => (none, cache.clear)

/-- Operations in order, with what each of them displaces. -/
def run (cache : TargetCache) : List CacheAction → List (Option Block) × TargetCache
  | [] => ([], cache)
  | action :: actions =>
    let (displaced, next) := cache.step action
    let (later, last) := next.run actions
    (displaced :: later, last)

variable {cache : TargetCache}

theorem run_concat (cache : TargetCache) (actions : List CacheAction) (action : CacheAction) :
    (cache.run (actions ++ [action])).2 = ((cache.run actions).2.step action).2 := by
  induction actions generalizing cache with
  | nil => rfl
  | cons first actions ih => exact ih (cache.step first).2

@[simp] theorem blockAt?_ofBits (bits index : Nat) : (ofBits bits).blockAt? index = none := by
  unfold blockAt? ofBits
  rw [Array.getElem?_replicate]
  split <;> rfl

@[simp] theorem blockAt?_clear (cache : TargetCache) (index : Nat) :
    cache.clear.blockAt? index = none := by
  unfold blockAt? clear
  rw [Array.getElem?_replicate]
  split <;> rfl

theorem Sized.step (sized : cache.Sized) (action : CacheAction) : (cache.step action).2.Sized := by
  cases action with
  | update block => exact sized.update block
  | clear => exact sized.clear

theorem bits_step (cache : TargetCache) (action : CacheAction) :
    (cache.step action).2.bits = cache.bits := by
  cases action <;> rfl

theorem Sized.run (sized : cache.Sized) (actions : List CacheAction) :
    (cache.run actions).2.Sized := by
  induction actions generalizing cache with
  | nil => exact sized
  | cons action actions ih => exact ih (sized.step action)

theorem bits_run (cache : TargetCache) (actions : List CacheAction) :
    (cache.run actions).2.bits = cache.bits := by
  induction actions generalizing cache with
  | nil => rfl
  | cons action actions ih => exact (ih (cache.step action).2).trans (cache.bits_step action)

/-! ## What stands at an index -/

/-- What stands at an index is the last block stored for an address with that index. -/
theorem blockAt?_run (bits index : Nat) (actions : List CacheAction) :
    ((ofBits bits).run actions).2.blockAt? index =
      CacheAction.lastUpdate (fun guest => guest.lowBits bits = index) actions := by
  induction actions using List.reverseRecOn with
  | nil => exact blockAt?_ofBits bits index
  | append_singleton actions action ih =>
    have sized := (sized_ofBits bits).run actions
    have same : ((ofBits bits).run actions).2.bits = bits := bits_run _ actions
    rw [run_concat]
    cases action with
    | update block =>
      rw [CacheAction.lastUpdate_concat_update, ← ih]
      refine (blockAt?_update sized block index).trans ?_
      unfold TargetCache.index
      rw [same]
    | clear =>
      rw [CacheAction.lastUpdate_concat_clear]
      exact blockAt?_clear _ index

/-- A lookup finds the block that stands at the index of its target, if that is for the target. -/
theorem lookup_eq_some_iff {target : GuestAddr} {host : HostAddr} :
    cache.lookup target = some host ↔
      cache.blockAt? (cache.index target) = some ⟨target, host⟩ := by
  unfold lookup
  rw [Option.map_eq_some_iff]
  constructor
  · rintro ⟨⟨guest, found⟩, held, rfl⟩
    obtain ⟨held, same⟩ := Option.filter_eq_some_iff.1 held
    obtain rfl : guest = target := of_decide_eq_true same
    exact held
  · intro held
    exact ⟨⟨target, host⟩, Option.filter_eq_some_iff.2 ⟨held, decide_eq_true rfl⟩, rfl⟩

/-- An update displaces the block at its index exactly if that is for another address. -/
theorem displacedBy_eq_some_iff {block old : Block} :
    cache.displacedBy block = some old ↔
      cache.blockAt? (cache.index block.guest) = some old ∧ old.guest ≠ block.guest := by
  unfold displacedBy
  rw [Option.filter_eq_some_iff, decide_eq_true_iff]

/-! ## Occupied indices -/

/-- The indices at which a block stands. -/
def occupiedIndices (cache : TargetCache) : Finset Nat :=
  (Finset.range cache.size).filter fun index => (cache.blockAt? index).isSome

/-- The operation stores a block, displaces none, and its address was not stored already. -/
def takesIndex (cache : TargetCache) : CacheAction → Bool
  | .update block => (cache.displacedBy block).isNone && (cache.lookup block.guest).isNone
  | .clear => false

/-- How many operations of a run take an index. -/
def indicesTaken : TargetCache → List CacheAction → Nat
  | _, [] => 0
  | cache, action :: actions =>
    (if cache.takesIndex action then 1 else 0) + indicesTaken (cache.step action).2 actions

/-- An update that displaces nothing and refreshes nothing finds its index free. -/
theorem takesIndex_update_iff {block : Block} :
    cache.takesIndex (.update block) = true ↔
      cache.blockAt? (cache.index block.guest) = none := by
  change ((cache.displacedBy block).isNone && (cache.lookup block.guest).isNone) = true ↔ _
  unfold displacedBy lookup
  cases cache.blockAt? (cache.index block.guest) with
  | none => exact iff_of_true rfl rfl
  | some held =>
    by_cases same : held.guest = block.guest
    · simp [same]
    · simp [same]

theorem occupiedIndices_update (sized : cache.Sized) (block : Block) :
    (cache.update block).occupiedIndices =
      insert (cache.index block.guest) cache.occupiedIndices := by
  have inside : cache.index block.guest < cache.size :=
    Nat.lt_of_lt_of_eq (block.guest.lowBits_lt cache.bits) sized.symm
  have size : (cache.update block).size = cache.size := Array.size_setIfInBounds
  ext index
  simp only [occupiedIndices, Finset.mem_filter, Finset.mem_range, Finset.mem_insert, size,
    blockAt?_update sized]
  by_cases here : cache.index block.guest = index
  · subst here
    simp [inside]
  · simp [here, Ne.symm here]

/-- Without a reset, one more index is occupied for each operation that takes one. -/
theorem card_occupied_run (sized : cache.Sized) {actions : List CacheAction}
    (lasting : CacheAction.clear ∉ actions) :
    (cache.run actions).2.occupiedIndices.card =
      cache.occupiedIndices.card + cache.indicesTaken actions := by
  induction actions generalizing cache with
  | nil => rfl
  | cons action actions ih =>
    rw [List.mem_cons, not_or] at lasting
    cases action with
    | clear => exact absurd rfl lasting.1
    | update block =>
      have inside : cache.index block.guest < cache.size :=
        Nat.lt_of_lt_of_eq (block.guest.lowBits_lt cache.bits) sized.symm
      have free : cache.takesIndex (.update block) = true ↔
          cache.index block.guest ∉ cache.occupiedIndices := by
        rw [takesIndex_update_iff]
        simp [occupiedIndices, inside]
      have rest := ih (sized.step (.update block)) lasting.2
      have first : (cache.step (.update block)).2.occupiedIndices = _ :=
        occupiedIndices_update sized block
      rw [first, Finset.card_insert_eq_ite] at rest
      refine rest.trans ?_
      rw [indicesTaken]
      by_cases taken : cache.index block.guest ∈ cache.occupiedIndices
      · rw [if_pos taken, if_neg (fun takes => free.1 takes taken), Nat.zero_add]
      · rw [if_neg taken, if_pos (free.2 taken), Nat.add_assoc]

/-! ## Runs of an empty cache -/

/-- Whatever is stored in an empty cache of any size, also between resets, a lookup finds host code
exactly if the last block stored, since the last reset, for an address with the same low-order bits
is that host code for the target itself. An update displaces the block at its index exactly if that
is for another address. At every index stands the last block stored there, whose address names the
index, and all indices are inside the cache. Without a reset, as many indices are occupied as
updates displaced nothing and refreshed nothing. -/
theorem run_holds_lastUpdate (bits : Nat) (actions : List CacheAction) :
    let reached := ((ofBits bits).run actions).2
    (∀ target host, reached.lookup target = some host ↔
      CacheAction.lastUpdate (fun guest => guest.AgreeBelow bits target) actions =
        some ⟨target, host⟩) ∧
    (∀ block old, (reached.step (.update block)).1 = some old ↔
      reached.blockAt? (reached.index block.guest) = some old ∧ old.guest ≠ block.guest) ∧
    (CacheAction.clear ∉ actions →
      reached.occupiedIndices.card = (ofBits bits).indicesTaken actions) ∧
    (∀ guest, reached.index guest < reached.size) ∧
    reached.size = tableSize bits ∧
    ∀ index block, reached.blockAt? index = some block →
      index < reached.size ∧ block.guest.lowBits bits = index ∧
      CacheAction.lastUpdate (fun guest => guest.lowBits bits = index) actions = some block := by
  intro reached
  have new := sized_ofBits bits
  have sized : reached.Sized := new.run actions
  have same : reached.bits = bits := bits_run _ actions
  have size : reached.size = tableSize bits := same ▸ sized
  have stands := fun index => blockAt?_run bits index actions
  refine ⟨?_, fun _ _ => displacedBy_eq_some_iff, ?_, ?_, size, ?_⟩
  · intro target host
    simp only [← GuestAddr.lowBits_eq_iff]
    rw [← stands, lookup_eq_some_iff, TargetCache.index, same]
  · intro lasting
    have counted := card_occupied_run new lasting
    have none : (ofBits bits).occupiedIndices = ∅ := by simp [occupiedIndices]
    rwa [none, Finset.card_empty, Nat.zero_add] at counted
  · intro guest
    exact Nat.lt_of_lt_of_eq (guest.lowBits_lt reached.bits) sized.symm
  · intro index block held
    have last := (stands index).symm.trans held
    have names : block.guest.lowBits bits = index := CacheAction.chosen_of_lastUpdate last
    refine ⟨?_, names, last⟩
    rw [size, ← names]
    exact block.guest.lowBits_lt bits

/-- Two addresses with the same low-order bit are stored in turn, and one of them is refreshed. -/
def aliasing : List CacheAction :=
  [.update ⟨⟨16⟩, ⟨1⟩⟩, .update ⟨⟨16⟩, ⟨2⟩⟩, .update ⟨⟨32⟩, ⟨3⟩⟩]

/-- Only the first update takes an index, and only the last stored address is found. -/
theorem run_holds_lastUpdate_aliasing :
    CacheAction.clear ∉ aliasing ∧
      ((ofBits 1).run aliasing).1 = [none, none, some ⟨⟨16⟩, ⟨2⟩⟩] ∧
      ((ofBits 1).run aliasing).2.occupiedIndices.card = 1 ∧
      ((ofBits 1).run aliasing).2.lookup ⟨32⟩ = some ⟨3⟩ := by
  obtain ⟨found, -, counted, -⟩ := run_holds_lastUpdate 1 aliasing
  have lasting : CacheAction.clear ∉ aliasing := by decide
  exact ⟨lasting, rfl, counted lasting, (found ⟨32⟩ ⟨3⟩).2 rfl⟩

end TargetCache

end TransferCache
