import Mathlib.Data.List.Nodup
import TransferCache.Context.Protocol
import TransferCache.Proofs.Shadow.Waiters

/-!
# Slots, waiters and the registry

Every compiled call site owns a slot. If the block at its return address is registered, the slot
holds host code that was registered for that address; if it is not, the slot is unresolved and one
waiter stands in the table for it. `Linking` is this agreement between the registry, the call sites,
the slots and the table, and the theorems below keep it when a block is registered and when a call
site is compiled.

`recent` is always the list of the blocks registered since the code was last flushed.
-/

namespace TransferCache

namespace SlotArray

/-- The slot that is handed out next. -/
def nextSlot (slots : SlotArray) : SlotRef := ⟨slots.allocated.toUInt64⟩

/-- The array after its next slot is handed out. -/
def taken (slots : SlotArray) : SlotArray := { slots with allocated := slots.allocated + 1 }

@[simp] theorem capacity_taken (slots : SlotArray) : slots.taken.capacity = slots.capacity := rfl

@[simp] theorem allocated_taken (slots : SlotArray) :
    slots.taken.allocated = slots.allocated + 1 := rfl

theorem alloc_of_lt {slots : SlotArray} (room : slots.allocated < slots.capacity) :
    slots.alloc = .ok (slots.nextSlot, slots.taken) :=
  if_pos room

theorem alloc_of_le {slots : SlotArray} (full : slots.capacity ≤ slots.allocated) :
    slots.alloc = .error ⟨slots.capacity⟩ :=
  if_neg (Nat.not_lt.2 full)

end SlotArray

/-- The frame that a call from this site pushes. -/
def CallSite.frame (site : CallSite) : Frame := ⟨site.ret, site.slot⟩

/-- What stands in the table while the slot of this site waits. -/
def CallSite.waiter (site : CallSite) : Waiter := ⟨site.ret, site.slot⟩

/-- The call sites whose return block is not registered. -/
def unlinked (registry : Registry) (sites : List CallSite) : List CallSite :=
  sites.filter fun site => (registry.lookup site.ret).isNone

theorem mem_unlinked {registry : Registry} {sites : List CallSite} {site : CallSite} :
    site ∈ unlinked registry sites ↔ site ∈ sites ∧ registry.lookup site.ret = none := by
  unfold unlinked
  rw [List.mem_filter, Option.isNone_iff_eq_none]

/-- The agreement between the registry, the compiled call sites in the order of their compilation,
their slots and the table of waiters. -/
structure Linking (registry : Registry) (sites : List CallSite) (slots : SlotArray)
    (links : WaitingLinks) (recent : List Block) : Prop where
  links_wf : links.WellFormed
  /-- Slots can be numbered by words. -/
  capacity_lt : slots.capacity < UInt64.size
  allocated_le : slots.allocated ≤ slots.capacity
  /-- Each call site owns the slot that was next when it was compiled. -/
  indices : sites.map (fun site => site.slot.index.toNat) = List.range slots.allocated
  /-- Nothing is written to a slot before it is handed out. -/
  fresh : ∀ slot : SlotRef, slots.allocated ≤ slot.index.toNat → slots.value slot = .unresolved
  nodes_perm : links.nodes.Perm ((unlinked registry sites).map CallSite.waiter)
  unresolved : ∀ site ∈ sites, registry.lookup site.ret = none →
    slots.value site.slot = .unresolved
  resolved : ∀ site ∈ sites, ∀ block, registry.lookup site.ret = some block →
    (⟨site.ret, slots.value site.slot⟩ : Block) ∈ recent

namespace Linking

variable {registry : Registry} {sites : List CallSite} {slots : SlotArray} {links : WaitingLinks}
  {recent : List Block}

/-! ## What the agreement says about slots -/

theorem length_sites (linking : Linking registry sites slots links recent) :
    sites.length = slots.allocated := by
  have length := congrArg List.length linking.indices
  rwa [List.length_map, List.length_range] at length

theorem index_lt (linking : Linking registry sites slots links recent) {site : CallSite}
    (compiled : site ∈ sites) : site.slot.index.toNat < slots.allocated := by
  have member : site.slot.index.toNat ∈ sites.map fun site => site.slot.index.toNat :=
    List.mem_map_of_mem compiled
  rw [linking.indices] at member
  exact List.mem_range.1 member

theorem holds (linking : Linking registry sites slots links recent) {site : CallSite}
    (compiled : site ∈ sites) : slots.holds site.slot = true := by
  have allocated := linking.index_lt compiled
  have bounded := linking.allocated_le
  exact decide_eq_true (Nat.lt_of_lt_of_le allocated bounded)

/-- Distinct call sites own distinct slots. -/
theorem nodup_slots (linking : Linking registry sites slots links recent) :
    (sites.map CallSite.slot).Nodup := by
  have distinct : (sites.map fun site => site.slot.index.toNat).Nodup := by
    rw [linking.indices]
    exact List.nodup_range
  apply List.Nodup.of_map (fun slot : SlotRef => slot.index.toNat)
  rw [List.map_map]
  exact distinct

theorem eq_of_slot_eq (linking : Linking registry sites slots links recent)
    {site other : CallSite} (compiled : site ∈ sites) (alsoCompiled : other ∈ sites)
    (same : site.slot = other.slot) : site = other :=
  List.inj_on_of_nodup_map linking.nodup_slots compiled alsoCompiled same

/-! ## What the agreement says about waiters -/

/-- The waiters of the table are those of the call sites whose return block is not registered. -/
theorem mem_nodes (linking : Linking registry sites slots links recent) {waiter : Waiter} :
    waiter ∈ links.nodes ↔
      ∃ site ∈ sites, registry.lookup site.ret = none ∧ site.waiter = waiter := by
  rw [linking.nodes_perm.mem_iff, List.mem_map]
  simp only [mem_unlinked, and_assoc]

/-- The slots that wait for an address are those of the call sites that return to it, as long as no
block is registered there. -/
theorem mem_waiters (linking : Linking registry sites slots links recent) {guest : GuestAddr}
    {slot : SlotRef} :
    slot ∈ links.waiters guest ↔
      registry.lookup guest = none ∧ ∃ site ∈ sites, site.ret = guest ∧ site.slot = slot := by
  rw [linking.links_wf.waiters_eq guest, List.mem_map]
  constructor
  · rintro ⟨waiter, member, rfl⟩
    obtain ⟨waits, atGuest⟩ := List.mem_filter.1 member
    obtain ⟨site, compiled, unregistered, rfl⟩ := linking.mem_nodes.1 waits
    obtain rfl : site.ret = guest := of_decide_eq_true atGuest
    exact ⟨unregistered, site, compiled, rfl, rfl⟩
  · rintro ⟨unregistered, site, compiled, rfl, rfl⟩
    refine ⟨site.waiter, List.mem_filter.2 ⟨?_, decide_eq_true rfl⟩, rfl⟩
    exact linking.mem_nodes.2 ⟨site, compiled, unregistered, rfl⟩

/-- No waiter names a slot outside the array. -/
theorem holds_of_mem_waiters (linking : Linking registry sites slots links recent)
    {guest : GuestAddr} {slot : SlotRef} (waits : slot ∈ links.waiters guest) :
    slots.holds slot = true := by
  obtain ⟨-, site, compiled, -, rfl⟩ := linking.mem_waiters.1 waits
  exact linking.holds compiled

theorem filter_waiters (linking : Linking registry sites slots links recent) (guest : GuestAddr) :
    (links.waiters guest).filter slots.holds = links.waiters guest :=
  List.filter_eq_self.2 fun _ => linking.holds_of_mem_waiters

theorem nodup_nodes (linking : Linking registry sites slots links recent) :
    links.nodes.Nodup := by
  rw [linking.nodes_perm.nodup_iff]
  have distinct : ((unlinked registry sites).map CallSite.slot).Nodup :=
    linking.nodup_slots.sublist (List.filter_sublist.map _)
  apply List.Nodup.of_map Waiter.slot
  rwa [List.map_map]

/-- The table names the slot of a call site whose return block is not registered exactly once, under
the return address. -/
theorem filter_nodes_of_unregistered (linking : Linking registry sites slots links recent)
    {site : CallSite} (compiled : site ∈ sites) (unregistered : registry.lookup site.ret = none) :
    links.nodes.filter (fun waiter => waiter.slot = site.slot) = [site.waiter] := by
  have waits : site.waiter ∈ links.nodes :=
    linking.mem_nodes.2 ⟨site, compiled, unregistered, rfl⟩
  have sameSlot : ∀ waiter ∈ links.nodes,
      decide (waiter.slot = site.slot) = decide (waiter = site.waiter) := by
    intro waiter member
    obtain ⟨other, alsoCompiled, -, rfl⟩ := linking.mem_nodes.1 member
    refine decide_eq_decide.2 ⟨fun same => ?_, fun same => congrArg Waiter.slot same⟩
    rw [linking.eq_of_slot_eq alsoCompiled compiled same]
  rw [List.filter_congr sameSlot, List.filter_eq,
    List.count_eq_one_of_mem linking.nodup_nodes waits]
  rfl

/-- The table does not name the slot of a call site whose return block is registered. -/
theorem slot_ne_of_registered (linking : Linking registry sites slots links recent)
    {site : CallSite} (compiled : site ∈ sites) (registered : registry.lookup site.ret ≠ none)
    {waiter : Waiter} (waits : waiter ∈ links.nodes) : waiter.slot ≠ site.slot := by
  obtain ⟨other, alsoCompiled, unregistered, rfl⟩ := linking.mem_nodes.1 waits
  intro same
  rw [linking.eq_of_slot_eq alsoCompiled compiled same] at unregistered
  exact registered unregistered

/-- As many slots wait as there are call sites whose return block is not registered. -/
theorem pending_eq (linking : Linking registry sites slots links recent) :
    links.pending = (unlinked registry sites).length := by
  rw [linking.links_wf.pending_eq, linking.nodes_perm.length_eq, List.length_map]

/-! ## Registering a block -/

/-- A registered block is written to the slots of the call sites that return to it, if it is the
first one there; every other slot keeps its value. -/
theorem value_register (linking : Linking registry sites slots links recent) (block : Block)
    {site : CallSite} (compiled : site ∈ sites) :
    (slots.resolveAll (links.waiters block.guest) block.host).value site.slot =
      if registry.lookup block.guest = none ∧ site.ret = block.guest then block.host
      else slots.value site.slot := by
  rw [SlotArray.value_resolveAll]
  have same : site.slot ∈ links.waiters block.guest ∧ slots.holds site.slot = true ↔
      registry.lookup block.guest = none ∧ site.ret = block.guest := by
    rw [linking.mem_waiters]
    constructor
    · rintro ⟨⟨unregistered, other, alsoCompiled, returns, owns⟩, -⟩
      rw [linking.eq_of_slot_eq compiled alsoCompiled owns.symm]
      exact ⟨unregistered, returns⟩
    · rintro ⟨unregistered, returns⟩
      exact ⟨⟨unregistered, site, compiled, returns, rfl⟩, linking.holds compiled⟩
  exact if_congr same rfl rfl

theorem unlinked_insert (registry : Registry) (sites : List CallSite) (block : Block) :
    unlinked (registry.insert block) sites =
      (unlinked registry sites).filter fun site => site.ret ≠ block.guest := by
  unfold unlinked
  rw [List.filter_filter]
  refine List.filter_congr fun site _ => ?_
  rw [Registry.lookup_insert]
  by_cases here : block.guest = site.ret
  · simp [here]
  · simp [here, Ne.symm here]

theorem register (linking : Linking registry sites slots links recent) (block : Block) :
    Linking (registry.insert block) sites
      (slots.resolveAll (links.waiters block.guest) block.host)
      (links.complete block.guest).2 (block :: recent) where
  links_wf := linking.links_wf.complete block.guest
  capacity_lt := by simpa using linking.capacity_lt
  allocated_le := by simpa using linking.allocated_le
  indices := by simpa using linking.indices
  fresh slot unallocated := by
    rw [SlotArray.allocated_resolveAll] at unallocated
    have idle : slot ∉ links.waiters block.guest := by
      intro waits
      obtain ⟨-, site, compiled, -, rfl⟩ := linking.mem_waiters.1 waits
      exact Nat.not_le.2 (linking.index_lt compiled) unallocated
    rw [SlotArray.value_resolveAll, if_neg (fun both => idle both.1)]
    exact linking.fresh slot unallocated
  nodes_perm := by
    rw [linking.links_wf.nodes_complete, unlinked_insert]
    have kept := linking.nodes_perm.filter fun waiter => waiter.guest ≠ block.guest
    rwa [List.filter_map] at kept
  unresolved site compiled unregistered := by
    rw [Registry.lookup_insert] at unregistered
    split at unregistered
    · cases unregistered
    · next elsewhere =>
      rw [linking.value_register block compiled, if_neg (fun both => elsewhere both.2.symm)]
      exact linking.unresolved site compiled unregistered
  resolved site compiled found registered := by
    rw [linking.value_register block compiled]
    rw [Registry.lookup_insert] at registered
    by_cases first : registry.lookup block.guest = none ∧ site.ret = block.guest
    · rw [if_pos first, first.2]
      exact List.mem_cons_self
    · rw [if_neg first]
      apply List.mem_cons_of_mem _
      split at registered
      · next here =>
        have known : registry.lookup site.ret ≠ none := fun none => first ⟨here ▸ none, here.symm⟩
        obtain ⟨earlier, registeredBefore⟩ := Option.ne_none_iff_exists'.1 known
        exact linking.resolved site compiled earlier registeredBefore
      · exact linking.resolved site compiled found registered

/-! ## Compiling a call site -/

theorem index_nextSlot (linking : Linking registry sites slots links recent)
    (room : slots.allocated < slots.capacity) :
    slots.nextSlot.index.toNat = slots.allocated :=
  Nat.mod_eq_of_lt (Nat.lt_trans room linking.capacity_lt)

theorem slot_ne_nextSlot (linking : Linking registry sites slots links recent)
    (room : slots.allocated < slots.capacity) {site : CallSite} (compiled : site ∈ sites) :
    slots.nextSlot ≠ site.slot := by
  intro same
  have below := linking.index_lt compiled
  rw [← same, linking.index_nextSlot room] at below
  exact Nat.lt_irrefl _ below

theorem indices_append (linking : Linking registry sites slots links recent)
    (room : slots.allocated < slots.capacity) (ret : GuestAddr) (linked : Bool) :
    (sites ++ [(⟨ret, slots.nextSlot, linked⟩ : CallSite)]).map
        (fun site => site.slot.index.toNat) =
      List.range (slots.allocated + 1) := by
  rw [List.map_append, linking.indices, List.range_succ, List.map_singleton,
    linking.index_nextSlot room]

/-- The slot that is handed out can be written. -/
theorem value_resolve_nextSlot (linking : Linking registry sites slots links recent)
    (room : slots.allocated < slots.capacity) (host : HostAddr) :
    (slots.taken.resolve slots.nextSlot host).value slots.nextSlot = host := by
  have inside : slots.taken.holds slots.nextSlot = true := by
    apply decide_eq_true
    rw [linking.index_nextSlot room]
    exact room
  rw [SlotArray.value_resolve, if_pos ⟨rfl, inside⟩]

/-- A call site whose return block is registered gets a slot that is filled at once. -/
theorem linkNow (linking : Linking registry sites slots links recent)
    (room : slots.allocated < slots.capacity) {ret : GuestAddr} {block : Block}
    (registered : registry.lookup ret = some block) (known : block ∈ recent) (linked : Bool) :
    Linking registry (sites ++ [⟨ret, slots.nextSlot, linked⟩])
      (slots.taken.resolve slots.nextSlot block.host) links recent where
  links_wf := linking.links_wf
  capacity_lt := by simpa using linking.capacity_lt
  allocated_le := by simpa using Nat.succ_le_of_lt room
  indices := linking.indices_append room ret linked
  fresh slot unallocated := by
    have beyond : slots.allocated + 1 ≤ slot.index.toNat := unallocated
    have apart : slots.nextSlot ≠ slot := by
      rintro rfl
      rw [linking.index_nextSlot room] at beyond
      exact Nat.not_succ_le_self _ beyond
    rw [SlotArray.value_resolve, if_neg (fun both => apart both.1)]
    exact linking.fresh slot (Nat.le_of_succ_le beyond)
  nodes_perm := by
    have same : unlinked registry (sites ++ [⟨ret, slots.nextSlot, linked⟩]) =
        unlinked registry sites := by
      simp [unlinked, registered]
    rw [same]
    exact linking.nodes_perm
  unresolved site compiled unregistered := by
    rcases List.mem_append.1 compiled with old | new
    · rw [SlotArray.value_resolve,
        if_neg (fun both => linking.slot_ne_nextSlot room old both.1)]
      exact linking.unresolved site old unregistered
    · rw [List.mem_singleton.1 new] at unregistered
      cases unregistered.symm.trans registered
  resolved site compiled found registered' := by
    rcases List.mem_append.1 compiled with old | new
    · rw [SlotArray.value_resolve,
        if_neg (fun both => linking.slot_ne_nextSlot room old both.1)]
      exact linking.resolved site old found registered'
    · obtain rfl := List.mem_singleton.1 new
      rw [linking.value_resolve_nextSlot room]
      have here : block.guest = ret := Registry.guest_of_lookup registered
      subst here
      exact known

/-- A call site whose return block is not registered gets a slot that waits. -/
theorem linkLater (linking : Linking registry sites slots links recent)
    (room : slots.allocated < slots.capacity) {ret : GuestAddr}
    (unregistered : registry.lookup ret = none) (linked : Bool) :
    Linking registry (sites ++ [⟨ret, slots.nextSlot, linked⟩]) slots.taken
      (links.defer ret slots.nextSlot) recent where
  links_wf := linking.links_wf.defer ret slots.nextSlot
  capacity_lt := linking.capacity_lt
  allocated_le := room
  indices := linking.indices_append room ret linked
  fresh slot unallocated := linking.fresh slot (Nat.le_of_succ_le unallocated)
  nodes_perm := by
    have added : unlinked registry (sites ++ [⟨ret, slots.nextSlot, linked⟩]) =
        unlinked registry sites ++ [⟨ret, slots.nextSlot, linked⟩] := by
      simp [unlinked, unregistered]
    rw [added, List.map_append]
    exact (linking.links_wf.sized.nodes_defer ret slots.nextSlot).trans
      (linking.nodes_perm.append_right _)
  unresolved site compiled unregistered' := by
    rcases List.mem_append.1 compiled with old | new
    · exact linking.unresolved site old unregistered'
    · rw [List.mem_singleton.1 new]
      exact linking.fresh slots.nextSlot (Nat.le_of_eq (linking.index_nextSlot room).symm)
  resolved site compiled found registered := by
    rcases List.mem_append.1 compiled with old | new
    · exact linking.resolved site old found registered
    · rw [List.mem_singleton.1 new] at registered
      cases registered.symm.trans unregistered

/-! ## Without call sites -/

theorem ofCapacity {capacity : Nat} (bounded : capacity < UInt64.size) (bits : Nat) :
    Linking .empty [] (.ofCapacity capacity) (.ofBits bits) [] where
  links_wf := WaitingLinks.wellFormed_ofBits bits
  capacity_lt := by simpa using bounded
  allocated_le := Nat.zero_le _
  indices := rfl
  fresh slot _ := SlotArray.value_ofCapacity capacity slot
  nodes_perm := by simp [unlinked]
  unresolved _ compiled := absurd compiled List.not_mem_nil
  resolved _ compiled := absurd compiled List.not_mem_nil

theorem clear (linking : Linking registry sites slots links recent) :
    Linking .empty [] slots.clear links.clear [] where
  links_wf := linking.links_wf.clear
  capacity_lt := by simpa using linking.capacity_lt
  allocated_le := Nat.zero_le _
  indices := rfl
  fresh slot _ := SlotArray.value_clear slots slot
  nodes_perm := by simp [unlinked]
  unresolved _ compiled := absurd compiled List.not_mem_nil
  resolved _ compiled := absurd compiled List.not_mem_nil

end Linking

end TransferCache
