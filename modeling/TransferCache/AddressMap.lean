import TransferCache.Address

/-!
# Maps keyed by guest address

A finite map held as its entries in the order in which their keys were first inserted. Inserting
under a key that is already present replaces the value in place. `find?` is the whole view of a map:
the lemmas below say what each operation does to it.
-/

namespace TransferCache

/-- A finite map from guest addresses, in order of first insertion. -/
structure AddressMap (α : Type) where
  entries : List (GuestAddr × α)
  deriving DecidableEq, Repr

namespace AddressMap

variable {α : Type}

def empty : AddressMap α := ⟨[]⟩

/-- The value stored first under `guest` in a list of entries. -/
def findEntry (guest : GuestAddr) : List (GuestAddr × α) → Option α
  | [] => none
  | (key, held) :: rest => if key = guest then some held else findEntry guest rest

/-- Puts `value` where `guest` already stands, or else at the end. -/
def putEntry (guest : GuestAddr) (value : α) : List (GuestAddr × α) → List (GuestAddr × α)
  | [] => [(guest, value)]
  | (key, held) :: rest =>
    if key = guest then (guest, value) :: rest else (key, held) :: putEntry guest value rest

def find? (map : AddressMap α) (guest : GuestAddr) : Option α :=
  findEntry guest map.entries

def insert (map : AddressMap α) (guest : GuestAddr) (value : α) : AddressMap α :=
  ⟨putEntry guest value map.entries⟩

def size (map : AddressMap α) : Nat := map.entries.length

/-! ## What the operations do to the view -/

@[simp] theorem find?_empty (guest : GuestAddr) : (empty : AddressMap α).find? guest = none := rfl

@[simp] theorem size_empty : (empty : AddressMap α).size = 0 := rfl

theorem findEntry_putEntry (guest other : GuestAddr) (value : α)
    (entries : List (GuestAddr × α)) :
    findEntry other (putEntry guest value entries) =
      if guest = other then some value else findEntry other entries := by
  induction entries with
  | nil => rfl
  | cons entry rest ih =>
    obtain ⟨key, held⟩ := entry
    by_cases atKey : key = guest
    · subst atKey
      by_cases same : key = other <;> simp [putEntry, findEntry, same]
    · by_cases same : guest = other
      · subst same
        simp [putEntry, findEntry, atKey, ih]
      · simp [putEntry, findEntry, atKey, same, ih]

/-- An inserted value is found under its own key, and every other key finds what it found before. -/
theorem find?_insert (map : AddressMap α) (guest other : GuestAddr) (value : α) :
    (map.insert guest value).find? other = if guest = other then some value else map.find? other :=
  findEntry_putEntry guest other value map.entries

theorem length_putEntry (guest : GuestAddr) (value : α) (entries : List (GuestAddr × α)) :
    (putEntry guest value entries).length =
      if (findEntry guest entries).isSome then entries.length else entries.length + 1 := by
  induction entries with
  | nil => rfl
  | cons entry rest ih =>
    obtain ⟨key, held⟩ := entry
    by_cases atKey : key = guest
    · simp [putEntry, findEntry, atKey]
    · simp only [putEntry, findEntry, atKey, if_false, List.length_cons, ih]
      split <;> rfl

/-- A map grows by one exactly when the inserted key is new. -/
theorem size_insert (map : AddressMap α) (guest : GuestAddr) (value : α) :
    (map.insert guest value).size = if (map.find? guest).isSome then map.size else map.size + 1 :=
  length_putEntry guest value map.entries

theorem mem_of_findEntry {guest : GuestAddr} {value : α} {entries : List (GuestAddr × α)}
    (found : findEntry guest entries = some value) : (guest, value) ∈ entries := by
  induction entries with
  | nil => cases found
  | cons entry rest ih =>
    obtain ⟨key, held⟩ := entry
    by_cases atKey : key = guest
    · subst atKey
      simp only [findEntry, if_true, Option.some.injEq] at found
      exact found ▸ List.mem_cons_self
    · simp only [findEntry, atKey, if_false] at found
      exact List.mem_cons_of_mem _ (ih found)

/-- What is found is an entry of the map. -/
theorem mem_of_find? {map : AddressMap α} {guest : GuestAddr} {value : α}
    (found : map.find? guest = some value) : (guest, value) ∈ map.entries :=
  mem_of_findEntry found

theorem putEntry_of_findEntry_eq_none {guest : GuestAddr} {value : α}
    {entries : List (GuestAddr × α)} (new : findEntry guest entries = none) :
    putEntry guest value entries = entries ++ [(guest, value)] := by
  induction entries with
  | nil => rfl
  | cons entry rest ih =>
    obtain ⟨key, held⟩ := entry
    by_cases atKey : key = guest
    · simp [findEntry, atKey] at new
    · simp only [findEntry, atKey, if_false] at new
      simp only [putEntry, atKey, if_false, ih new, List.cons_append]

/-- A new key goes to the end. -/
theorem entries_insert_of_find?_eq_none {map : AddressMap α} {guest : GuestAddr}
    (new : map.find? guest = none) (value : α) :
    (map.insert guest value).entries = map.entries ++ [(guest, value)] :=
  putEntry_of_findEntry_eq_none new

/-! ## Maps without repeated keys -/

/-- No key stands in two entries. -/
def Keyed (map : AddressMap α) : Prop := (map.entries.map Prod.fst).Nodup

theorem keyed_empty : (empty : AddressMap α).Keyed := List.nodup_nil

theorem findEntry_of_mem {guest : GuestAddr} {value : α} {entries : List (GuestAddr × α)}
    (keyed : (entries.map Prod.fst).Nodup) (member : (guest, value) ∈ entries) :
    findEntry guest entries = some value := by
  induction entries with
  | nil => cases member
  | cons entry rest ih =>
    obtain ⟨key, held⟩ := entry
    obtain ⟨fresh, keyed⟩ := List.nodup_cons.1 keyed
    rcases List.mem_cons.1 member with same | later
    · cases same
      exact if_pos rfl
    · have apart : key ≠ guest := by
        rintro rfl
        exact fresh (List.mem_map.2 ⟨_, later, rfl⟩)
      exact (if_neg apart).trans (ih keyed later)

/-- Every entry of a map without repeated keys is found. -/
theorem Keyed.find?_of_mem {map : AddressMap α} (keyed : map.Keyed) {guest : GuestAddr} {value : α}
    (member : (guest, value) ∈ map.entries) : map.find? guest = some value :=
  findEntry_of_mem keyed member

theorem Keyed.insert {map : AddressMap α} (keyed : map.Keyed) {guest : GuestAddr}
    (new : map.find? guest = none) (value : α) : (map.insert guest value).Keyed := by
  unfold Keyed
  rw [entries_insert_of_find?_eq_none new, List.map_append, List.nodup_append]
  refine ⟨keyed, List.pairwise_singleton _ guest, ?_⟩
  intro key old other last same
  obtain ⟨⟨_, held⟩, member, rfl⟩ := List.mem_map.1 old
  obtain rfl : _ = guest := same.trans (List.mem_singleton.1 last)
  cases new.symm.trans (keyed.find?_of_mem member)

end AddressMap

end TransferCache
