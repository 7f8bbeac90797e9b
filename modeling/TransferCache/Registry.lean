import TransferCache.AddressMap

/-!
# The registry of compiled blocks

The registry answers one question: which block, if any, is compiled for a guest address. A later
registration at the same guest address replaces the earlier one. Registering here links nothing;
completing the links that wait for a block is the context's part.
-/

namespace TransferCache

/-- The blocks compiled so far: at most one host entry point for each guest address. -/
structure Registry where
  hosts : AddressMap HostAddr
  deriving DecidableEq, Repr

namespace Registry

def empty : Registry := ⟨.empty⟩

/-- The block compiled for `guest`. -/
def lookup (registry : Registry) (guest : GuestAddr) : Option Block :=
  (registry.hosts.find? guest).map (Block.mk guest)

def insert (registry : Registry) (block : Block) : Registry :=
  ⟨registry.hosts.insert block.guest block.host⟩

def size (registry : Registry) : Nat := registry.hosts.size

def isEmpty (registry : Registry) : Bool := registry.size = 0

@[simp] theorem lookup_empty (guest : GuestAddr) : empty.lookup guest = none := rfl

/-- A registered block is the one found at its guest address; no other address is affected. -/
theorem lookup_insert (registry : Registry) (block : Block) (guest : GuestAddr) :
    (registry.insert block).lookup guest =
      if block.guest = guest then some block else registry.lookup guest := by
  simp only [lookup, insert, AddressMap.find?_insert]
  split
  · next same => subst same; rfl
  · rfl

@[simp] theorem lookup_insert_self (registry : Registry) (block : Block) :
    (registry.insert block).lookup block.guest = some block :=
  (registry.lookup_insert block block.guest).trans (if_pos rfl)

theorem guest_of_lookup {registry : Registry} {guest : GuestAddr} {block : Block}
    (found : registry.lookup guest = some block) : block.guest = guest := by
  obtain ⟨host, -, rfl⟩ := Option.map_eq_some_iff.1 found
  rfl

end Registry

end TransferCache
