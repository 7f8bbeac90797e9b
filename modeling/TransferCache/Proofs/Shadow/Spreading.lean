import Mathlib.Data.Fintype.EquivFin
import Mathlib.Data.Set.Function
import TransferCache.Config.Basic
import TransferCache.Proofs.Shadow.WaitingList

/-!
# Neighbouring addresses meet different buckets

Folding moves the upper index bits of an address onto the lower ones, by half the number of index
bits. Where that moves them at all, addresses that agree above the index bits can be told apart by
the folded ones: the highest index bits stand in them as they are, and each bit below follows from a
higher one. So every aligned block of as many addresses as a table has buckets meets each bucket
once.

A table of two buckets has a single index bit, and half of one bit is no move. There the address is
folded onto itself: every address meets the first bucket, and the second stays empty for good.

* `Neighbours.eq_of_foldBits_eq`: neighbours in one bucket are equal.
* `bijOn_foldBits`: a block meets each bucket once.
* `foldBits_spreads`: both for every accepted table size but one, and what happens at that one.
-/

namespace TransferCache

namespace GuestAddr

variable {bits : Nat} {guest other : GuestAddr}

/-! ## Blocks of addresses -/

/-- The addresses differ in their low-order bits at most. -/
def Neighbours (bits : Nat) (guest other : GuestAddr) : Prop :=
  ∀ place, bits ≤ place → guest.word.toNat.testBit place = other.word.toNat.testBit place

/-- The addresses of the aligned block of `2 ^ bits` consecutive ones that `guest` lies in. -/
def block (guest : GuestAddr) (bits : Nat) : Set GuestAddr :=
  {other | other.word.toNat / tableSize bits = guest.word.toNat / tableSize bits}

/-- The address that stands so far into the block of `guest`. -/
def blockMember (guest : GuestAddr) (bits offset : Nat) : GuestAddr :=
  ⟨(tableSize bits * (guest.word.toNat / tableSize bits) + offset).toUInt64⟩

theorem eq_of_toNat_eq (same : guest.word.toNat = other.word.toNat) : guest = other := by
  obtain ⟨word⟩ := guest
  obtain ⟨otherWord⟩ := other
  exact congrArg GuestAddr.mk (UInt64.toNat_inj.1 same)

/-- A block is made of neighbours. -/
theorem mem_block_iff : other ∈ guest.block bits ↔ Neighbours bits other guest := by
  have shifted : ∀ addr : GuestAddr,
      addr.word.toNat / tableSize bits = addr.word.toNat >>> bits := by
    intro addr
    rw [Nat.shiftRight_eq_div_pow, tableSize, Nat.one_shiftLeft]
  change other.word.toNat / tableSize bits = guest.word.toNat / tableSize bits ↔ _
  rw [shifted, shifted]
  constructor
  · intro same place above
    obtain ⟨rest, rfl⟩ := Nat.exists_eq_add_of_le above
    rw [← Nat.testBit_shiftRight, ← Nat.testBit_shiftRight, same]
  · intro near
    refine Nat.eq_of_testBit_eq fun place => ?_
    rw [Nat.testBit_shiftRight, Nat.testBit_shiftRight]
    exact near (bits + place) (Nat.le_add_right bits place)

theorem toNat_blockMember (fits : bits ≤ 64) (guest : GuestAddr) {offset : Nat}
    (inside : offset < tableSize bits) :
    (guest.blockMember bits offset).word.toNat =
      tableSize bits * (guest.word.toNat / tableSize bits) + offset := by
  have blocks : tableSize bits * 2 ^ (64 - bits) = 2 ^ 64 := by
    rw [tableSize, Nat.one_shiftLeft, ← Nat.pow_add, Nat.add_sub_of_le fits]
  have number : guest.word.toNat / tableSize bits < 2 ^ (64 - bits) := by
    rw [Nat.div_lt_iff_lt_mul (tableSize_pos bits), Nat.mul_comm, blocks]
    exact guest.word.toNat_lt
  have bounded : tableSize bits * (guest.word.toNat / tableSize bits + 1) ≤ 2 ^ 64 :=
    blocks ▸ Nat.mul_le_mul_left (tableSize bits) number
  refine Nat.mod_eq_of_lt ?_
  rw [Nat.mul_add, Nat.mul_one] at bounded
  omega

theorem blockMember_mem (fits : bits ≤ 64) (guest : GuestAddr) {offset : Nat}
    (inside : offset < tableSize bits) : guest.blockMember bits offset ∈ guest.block bits := by
  change (guest.blockMember bits offset).word.toNat / tableSize bits = _
  rw [toNat_blockMember fits guest inside, Nat.mul_add_div (tableSize_pos bits),
    Nat.div_eq_of_lt inside, Nat.add_zero]

/-! ## Folded bits -/

/-- A folded bit is the address bit in its place and one half of the index bits above it. -/
theorem testBit_foldBits (guest : GuestAddr) {place : Nat} (inside : place < bits) :
    (guest.foldBits bits).testBit place =
      (guest.word.toNat.testBit (bits / 2 + place) ^^ guest.word.toNat.testBit place) := by
  rw [foldBits, tableSize, Nat.one_shiftLeft, Nat.testBit_mod_two_pow, Nat.testBit_xor,
    Nat.testBit_shiftRight, decide_eq_true inside, Bool.true_and]

/-- Neighbours in one bucket are equal, if the folding moves bits at all. -/
theorem Neighbours.eq_of_foldBits_eq (near : Neighbours bits guest other) (moves : 2 ≤ bits)
    (same : guest.foldBits bits = other.foldBits bits) : guest = other := by
  refine eq_of_toNat_eq (Nat.eq_of_testBit_eq fun place => ?_)
  -- From the top down: `left` is how far the place is below the index bits.
  induction left : bits - place using Nat.strongRecOn generalizing place with
  | ind left ih =>
    rcases Nat.lt_or_ge place bits with inside | above
    · have higher : guest.word.toNat.testBit (bits / 2 + place) =
          other.word.toNat.testBit (bits / 2 + place) :=
        ih (bits - (bits / 2 + place)) (by omega) (bits / 2 + place) rfl
      have folded := congrArg (Nat.testBit · place) same
      simp only [testBit_foldBits _ inside, higher] at folded
      exact (Bool.xor_right_inj).1 folded
    · exact near place above

/-- The bucket of the address that stands so far into the block of `guest`. -/
def bucketAt (guest : GuestAddr) (bits : Nat) (offset : Fin (tableSize bits)) :
    Fin (tableSize bits) :=
  ⟨(guest.blockMember bits offset).foldBits bits, foldBits_lt _ bits⟩

/-- A block of as many addresses as a table has buckets meets each bucket once. -/
theorem bijOn_foldBits (moves : 2 ≤ bits) (fits : bits ≤ 64) (guest : GuestAddr) :
    Set.BijOn (foldBits · bits) (guest.block bits) (Set.Iio (tableSize bits)) := by
  have apart : Set.InjOn (foldBits · bits) (guest.block bits) := by
    intro first firstMember second secondMember same
    have near : Neighbours bits first second := fun place above =>
      (mem_block_iff.1 firstMember place above).trans
        (mem_block_iff.1 secondMember place above).symm
    exact near.eq_of_foldBits_eq moves same
  refine ⟨fun other _ => other.foldBits_lt bits, apart, ?_⟩
  -- A block has as many members as there are buckets, so meeting none twice is meeting all.
  have injective : Function.Injective (guest.bucketAt bits) := by
    intro first second same
    have members : guest.blockMember bits first = guest.blockMember bits second :=
      apart (blockMember_mem fits guest first.isLt) (blockMember_mem fits guest second.isLt)
        (congrArg Fin.val same)
    have places := congrArg (fun addr => addr.word.toNat) members
    simp only [toNat_blockMember fits guest first.isLt,
      toNat_blockMember fits guest second.isLt] at places
    exact Fin.ext (Nat.add_left_cancel places)
  intro index inside
  obtain ⟨offset, met⟩ := Finite.injective_iff_surjective.1 injective ⟨index, inside⟩
  exact ⟨guest.blockMember bits offset, blockMember_mem fits guest offset.isLt,
    congrArg Fin.val met⟩

/-- A single index bit is folded onto itself. -/
theorem foldBits_one (guest : GuestAddr) : guest.foldBits 1 = 0 := by
  unfold foldBits
  rw [Nat.shiftRight_zero, Nat.xor_self, Nat.zero_mod]

end GuestAddr

namespace WaitingLinks

/-! ## Buckets that are met -/

theorem bits_run (links : WaitingLinks) (actions : List LinkAction) :
    (links.run actions).2.bits = links.bits := by
  induction actions generalizing links with
  | nil => rfl
  | cons action actions ih =>
    have kept : (links.step action).2.bits = links.bits := by cases action <;> rfl
    exact (ih (links.step action).2).trans kept

theorem wellFormed_run (bits : Nat) (actions : List LinkAction) :
    ((ofBits bits).run actions).2.WellFormed :=
  ((refines_ofBits bits).run actions).2.wf

/-- A slot that is deferred stands in the bucket of its address. -/
theorem Sized.mem_bucket_defer {links : WaitingLinks} (sized : links.Sized) (guest : GuestAddr)
    (slot : SlotRef) :
    ∃ bucket, (links.defer guest slot).buckets[guest.foldBits links.bits]? = some bucket ∧
      (⟨guest, slot⟩ : Waiter) ∈ bucket := by
  have inside : guest.foldBits links.bits < links.buckets.size := by
    rw [sized]
    exact guest.foldBits_lt links.bits
  exact ⟨_, Array.getElem?_setIfInBounds_self_of_lt inside,
    List.mem_append_right _ List.mem_cons_self⟩

/-- The second of two buckets never holds a waiter. -/
theorem second_of_two_empty (actions : List LinkAction) :
    ((ofBits 1).run actions).2.buckets[1]? = some [] := by
  have wf := wellFormed_run 1 actions
  have bits : ((ofBits 1).run actions).2.bits = 1 := bits_run (ofBits 1) actions
  have inside : 1 < ((ofBits 1).run actions).2.buckets.size := by
    rw [wf.sized, bits]
    decide
  rw [Array.getElem?_eq_getElem inside]
  refine congrArg some (List.eq_nil_iff_forall_not_mem.2 fun waiter waits => ?_)
  have filed := wf.filed 1 _ (Array.getElem?_eq_getElem inside) waiter waits
  rw [bits, waiter.guest.foldBits_one] at filed
  cases filed

end WaitingLinks

/-! ## Accepted table sizes -/

theorem Config.acceptsBits_iff (bits : UInt32) :
    Config.acceptsBits bits = true ↔ 1 ≤ bits.toNat ∧ bits.toNat ≤ 24 := by
  rw [acceptsBits, decide_eq_true_iff, UInt32.le_iff_toNat_le, UInt32.le_iff_toNat_le]
  rfl

/-- A bucket index lies within the table. If a table has more than two buckets, distinct addresses
that agree in all but their index bits meet different buckets, an aligned block of as many addresses
as there are buckets meets each of them once, and whatever has been done with the table, every
bucket takes the waiters of some address of the block. If it has two, all addresses meet the first
bucket and the second is never used. -/
theorem GuestAddr.foldBits_spreads {bits : UInt32} (accepted : Config.acceptsBits bits = true) :
    (∀ guest : GuestAddr, guest.foldBits bits.toNat < 2 ^ bits.toNat) ∧
    (bits ≠ 1 →
      (∀ guest other, guest ≠ other → Neighbours bits.toNat guest other →
        guest.foldBits bits.toNat ≠ other.foldBits bits.toNat) ∧
      ∀ guest : GuestAddr,
        Set.BijOn (foldBits · bits.toNat) (guest.block bits.toNat) (Set.Iio (2 ^ bits.toNat)) ∧
        ∀ actions index, index < 2 ^ bits.toNat → ∃ other ∈ guest.block bits.toNat, ∀ slot,
          let reached := ((WaitingLinks.ofBits bits.toNat).run actions).2
          ∃ bucket, (reached.defer other slot).buckets[index]? = some bucket ∧
            (⟨other, slot⟩ : Waiter) ∈ bucket) ∧
    (bits = 1 →
      (∀ guest : GuestAddr, guest.foldBits bits.toNat = 0) ∧
      ∀ actions, ((WaitingLinks.ofBits bits.toNat).run actions).2.buckets[1]? = some []) := by
  obtain ⟨atLeast, atMost⟩ := (Config.acceptsBits_iff bits).1 accepted
  have size : tableSize bits.toNat = 2 ^ bits.toNat := Nat.one_shiftLeft _
  refine ⟨fun guest => size ▸ guest.foldBits_lt bits.toNat, fun several => ?_, ?_⟩
  · have moves : 2 ≤ bits.toNat := by
      have notOne : bits.toNat ≠ 1 := fun one => several (UInt32.toNat_inj.1 one)
      omega
    refine ⟨fun guest other distinct near same => distinct (near.eq_of_foldBits_eq moves same),
      fun guest => ?_⟩
    have once := bijOn_foldBits moves (by omega) guest
    refine ⟨size ▸ once, fun actions index inside => ?_⟩
    obtain ⟨other, member, met⟩ := once.surjOn (size ▸ inside : index < tableSize bits.toNat)
    refine ⟨other, member, fun slot => ?_⟩
    have kept := WaitingLinks.bits_run (.ofBits bits.toNat) actions
    have stands := (WaitingLinks.wellFormed_run bits.toNat actions).sized.mem_bucket_defer other
      slot
    rw [kept] at stands
    exact met ▸ stands
  · rintro rfl
    exact ⟨foldBits_one, WaitingLinks.second_of_two_empty⟩

/-- In the smallest table that spreads addresses, with four buckets, and in the one of two. -/
theorem GuestAddr.foldBits_spreads_smallest :
    Config.acceptsBits 2 = true ∧ Config.acceptsBits 1 = true ∧
      (⟨4⟩ : GuestAddr).foldBits 2 ≠ (⟨7⟩ : GuestAddr).foldBits 2 ∧
      Set.BijOn (foldBits · 2) ((⟨4⟩ : GuestAddr).block 2) (Set.Iio 4) ∧
      ((WaitingLinks.ofBits 1).run [.defer ⟨5⟩ ⟨0⟩]).2.buckets[1]? = some [] := by
  have two : Config.acceptsBits 2 = true := by decide
  have one : Config.acceptsBits 1 = true := by decide
  obtain ⟨-, several, -⟩ := foldBits_spreads two
  obtain ⟨distinct, once⟩ := several (by decide)
  obtain ⟨-, -, wasted⟩ := foldBits_spreads one
  exact ⟨two, one, distinct ⟨4⟩ ⟨7⟩ (by decide) (mem_block_iff.1 rfl), (once ⟨4⟩).1,
    (wasted rfl).2 _⟩

/-- Two neighbours in a table of two buckets share the first one. -/
theorem GuestAddr.neighbours_share_first_of_two :
    Config.acceptsBits 1 = true ∧ (⟨0⟩ : GuestAddr) ≠ ⟨1⟩ ∧ Neighbours 1 ⟨0⟩ ⟨1⟩ ∧
      (⟨0⟩ : GuestAddr).foldBits 1 = 0 ∧ (⟨1⟩ : GuestAddr).foldBits 1 = 0 ∧
      ¬Set.BijOn (foldBits · 1) ((⟨0⟩ : GuestAddr).block 1) (Set.Iio 2) := by
  have near : Neighbours 1 ⟨0⟩ ⟨1⟩ := mem_block_iff.1 rfl
  refine ⟨by decide, by decide, near, foldBits_one _, foldBits_one _, fun once => ?_⟩
  have first : (⟨0⟩ : GuestAddr) ∈ (⟨0⟩ : GuestAddr).block 1 := rfl
  have second : (⟨1⟩ : GuestAddr) ∈ (⟨0⟩ : GuestAddr).block 1 := rfl
  cases once.injOn second first ((foldBits_one ⟨1⟩).trans (foldBits_one ⟨0⟩).symm)

end TransferCache
