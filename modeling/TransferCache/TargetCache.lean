import TransferCache.Address

/-!
# The cache of indirect branch targets

A direct-mapped cache from guest jump targets to compiled blocks. A target's index is its low-order
bits, and a hit requires that the block stored there is for exactly that target, so that another
block at the same index is a miss and never a wrong answer.
-/

namespace TransferCache

/-- One block, at most, at each index of so many bits. -/
structure TargetCache where
  entries : Array (Option Block)
  bits : Nat
  deriving DecidableEq, Repr

namespace TargetCache

/-- A cache without entries. -/
def ofBits (bits : Nat) : TargetCache := ⟨Array.replicate (tableSize bits) none, bits⟩

def size (cache : TargetCache) : Nat := cache.entries.size

/-- The only index that a block for `guest` can occupy. -/
def index (cache : TargetCache) (guest : GuestAddr) : Nat := guest.lowBits cache.bits

def blockAt? (cache : TargetCache) (index : Nat) : Option Block := cache.entries[index]?.join

/-- The host code cached for exactly `target`. -/
def lookup (cache : TargetCache) (target : GuestAddr) : Option HostAddr :=
  ((cache.blockAt? (cache.index target)).filter fun block => block.guest = target).map Block.host

/-- The block that storing `block` displaces: the one at its index, if that is for another guest
address. -/
def displacedBy (cache : TargetCache) (block : Block) : Option Block :=
  (cache.blockAt? (cache.index block.guest)).filter fun held => held.guest ≠ block.guest

/-- Stores a block at its index. -/
def update (cache : TargetCache) (block : Block) : TargetCache :=
  { cache with entries := cache.entries.setIfInBounds (cache.index block.guest) (some block) }

def clear (cache : TargetCache) : TargetCache :=
  { cache with entries := Array.replicate cache.size none }

/-- The occupied indices with their blocks, in ascending order. -/
def occupied (cache : TargetCache) : List (Nat × Block) :=
  cache.entries.toList.zipIdx.filterMap fun (entry, index) => entry.map (index, ·)

/-! ## What the operations do to lookups -/

/-- Every address has an index of the cache. -/
def Sized (cache : TargetCache) : Prop := cache.size = tableSize cache.bits

theorem sized_ofBits (bits : Nat) : (ofBits bits).Sized := Array.size_replicate

theorem Sized.update {cache : TargetCache} (sized : cache.Sized) (block : Block) :
    (cache.update block).Sized :=
  Array.size_setIfInBounds.trans sized

theorem Sized.clear {cache : TargetCache} (sized : cache.Sized) : cache.clear.Sized :=
  Array.size_replicate.trans sized

@[simp] theorem lookup_ofBits (bits : Nat) (target : GuestAddr) :
    (ofBits bits).lookup target = none := by
  simp [lookup, blockAt?, index, ofBits, GuestAddr.lowBits_lt]

@[simp] theorem lookup_clear (cache : TargetCache) (target : GuestAddr) :
    cache.clear.lookup target = none := by
  by_cases inside : target.lowBits cache.bits < cache.entries.size <;>
    simp [lookup, blockAt?, index, clear, size, inside]

theorem blockAt?_update {cache : TargetCache} (sized : cache.Sized) (block : Block) (index : Nat) :
    (cache.update block).blockAt? index =
      if cache.index block.guest = index then some block else cache.blockAt? index := by
  have inside : cache.index block.guest < cache.entries.size :=
    Nat.lt_of_lt_of_eq (block.guest.lowBits_lt cache.bits) sized.symm
  unfold blockAt? update
  by_cases same : cache.index block.guest = index
  · subst same
    simp [inside]
  · simp [same]

/-- A stored block is found under its own address, an address that shares its index finds nothing
any more, and every other address finds what it found before. -/
theorem lookup_update {cache : TargetCache} (sized : cache.Sized) (block : Block)
    (target : GuestAddr) :
    (cache.update block).lookup target =
      if block.guest = target then some block.host
      else if cache.index block.guest = cache.index target then none
      else cache.lookup target := by
  have found : (cache.update block).lookup target =
      (((cache.update block).blockAt? (cache.index target)).filter
        fun held => held.guest = target).map Block.host := rfl
  rw [found, blockAt?_update sized]
  by_cases same : block.guest = target
  · subst same
    simp [Option.filter]
  · rw [if_neg same]
    split
    · simp [Option.filter, same]
    · rfl

end TargetCache

end TransferCache
