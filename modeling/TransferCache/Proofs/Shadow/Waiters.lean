import TransferCache.Shadow.Waiting

/-!
# The waiters of a table

The buckets of a table are storage; what matters is which slots wait for which address.
`WaitingLinks.nodes` lists all waiters of a table, and `WaitingLinks.WellFormed` says that each of
them stands in the bucket of its address and that `pending` counts them. Deferring a slot adds its
waiter, and completing an address takes out the waiters of that address and no others.
-/

namespace TransferCache.WaitingLinks

/-- Every waiter of a table, bucket by bucket. -/
def nodes (links : WaitingLinks) : List Waiter := links.buckets.toList.flatten

/-- Every address has a bucket, every waiter is in the bucket of its address, and all are counted.
-/
structure WellFormed (links : WaitingLinks) : Prop where
  sized : links.Sized
  filed : ∀ (index : Nat) (bucket : List Waiter), links.buckets[index]? = some bucket →
    ∀ waiter ∈ bucket, waiter.guest.foldBits links.bits = index
  pending_eq : links.pending = links.nodes.length

variable {links : WaitingLinks}

/-! ## One bucket among the others -/

/-- The bucket of an address as it stands in the table. -/
theorem Sized.getElem?_bucket (sized : links.Sized) (guest : GuestAddr) :
    links.buckets[guest.foldBits links.bits]? = some (links.bucket guest) := by
  have inside : guest.foldBits links.bits < links.buckets.size := by
    rw [sized]
    exact guest.foldBits_lt links.bits
  unfold bucket
  rw [Array.getElem?_eq_getElem inside]
  rfl

/-- The buckets before and after the one of `guest`. -/
theorem Sized.exists_split (sized : links.Sized) (guest : GuestAddr) :
    ∃ before after, links.buckets.toList = before ++ links.bucket guest :: after ∧
      before.length = guest.foldBits links.bits := by
  have found := sized.getElem?_bucket guest
  rw [← Array.getElem?_toList] at found
  obtain ⟨inside, found⟩ := List.getElem?_eq_some_iff.1 found
  refine ⟨links.buckets.toList.take (guest.foldBits links.bits),
    links.buckets.toList.drop (guest.foldBits links.bits + 1), ?_, ?_⟩
  · rw [← found, List.getElem_cons_drop, List.take_append_drop]
  · exact List.length_take_of_le (Nat.le_of_lt inside)

/-- Replacing the bucket of `guest` leaves the buckets around it as they are. -/
theorem toList_setBucket {guest : GuestAddr} {before after : List (List Waiter)}
    {held : List Waiter} (split : links.buckets.toList = before ++ held :: after)
    (place : before.length = guest.foldBits links.bits) (bucket : List Waiter) :
    (links.setBucket guest bucket).buckets.toList = before ++ bucket :: after := by
  unfold setBucket
  rw [Array.toList_setIfInBounds, split, ← place, List.set_append_right _ _ (Nat.le_refl _),
    Nat.sub_self, List.set_cons_zero]

/-- No other bucket holds a waiter for `guest`. -/
theorem WellFormed.guest_ne (wf : links.WellFormed) {guest : GuestAddr}
    {before after : List (List Waiter)} {held : List Waiter}
    (split : links.buckets.toList = before ++ held :: after)
    (place : before.length = guest.foldBits links.bits) {waiter : Waiter}
    (member : waiter ∈ before.flatten ∨ waiter ∈ after.flatten) : waiter.guest ≠ guest := by
  have elsewhere : ∃ index, index ≠ before.length ∧ ∃ bucket,
      links.buckets.toList[index]? = some bucket ∧ waiter ∈ bucket := by
    rcases member with early | late
    · obtain ⟨bucket, inside, waits⟩ := List.mem_flatten.1 early
      obtain ⟨index, below, found⟩ := List.mem_iff_getElem.1 inside
      refine ⟨index, Nat.ne_of_lt below, bucket, ?_, waits⟩
      rw [split, List.getElem?_append_left below, List.getElem?_eq_getElem below, found]
    · obtain ⟨bucket, inside, waits⟩ := List.mem_flatten.1 late
      obtain ⟨offset, below, found⟩ := List.mem_iff_getElem.1 inside
      refine ⟨before.length + 1 + offset, by omega, bucket, ?_, waits⟩
      rw [split, List.getElem?_append_right (by omega),
        show before.length + 1 + offset - before.length = offset + 1 by omega,
        List.getElem?_cons_succ, List.getElem?_eq_getElem below, found]
  obtain ⟨index, apart, bucket, found, waits⟩ := elsewhere
  rintro rfl
  exact apart ((wf.filed index bucket (by simpa using found) waiter waits).symm.trans place.symm)

/-- A replaced bucket of waiters that belong there keeps the others in their buckets. -/
theorem WellFormed.filed_setBucket (wf : links.WellFormed) (guest : GuestAddr)
    {bucket : List Waiter}
    (belong : ∀ waiter ∈ bucket, waiter.guest.foldBits links.bits = guest.foldBits links.bits) :
    ∀ (index : Nat) (held : List Waiter),
      (links.setBucket guest bucket).buckets[index]? = some held →
      ∀ waiter ∈ held, waiter.guest.foldBits links.bits = index := by
  intro index held found waiter waits
  unfold setBucket at found
  by_cases here : guest.foldBits links.bits = index
  · have inside : guest.foldBits links.bits < links.buckets.size := by
      rw [wf.sized]
      exact guest.foldBits_lt links.bits
    subst here
    rw [Array.getElem?_setIfInBounds_self_of_lt inside] at found
    cases found
    exact belong waiter waits
  · rw [Array.getElem?_setIfInBounds_ne here] at found
    exact wf.filed index held found waiter waits

theorem WellFormed.filed_bucket (wf : links.WellFormed) (guest : GuestAddr) :
    ∀ waiter ∈ links.bucket guest,
      waiter.guest.foldBits links.bits = guest.foldBits links.bits :=
  wf.filed _ _ (wf.sized.getElem?_bucket guest)

/-! ## Empty tables -/

@[simp] theorem nodes_ofBits (bits : Nat) : (ofBits bits).nodes = [] := by
  simp [nodes, ofBits]

@[simp] theorem nodes_clear (links : WaitingLinks) : links.clear.nodes = [] := by
  simp [nodes, clear]

theorem wellFormed_ofBits (bits : Nat) : (ofBits bits).WellFormed := by
  refine ⟨sized_ofBits bits, ?_, by rw [nodes_ofBits]; rfl⟩
  intro index bucket found waiter waits
  rw [ofBits, Array.getElem?_replicate] at found
  split at found
  · cases found
    cases waits
  · cases found

theorem WellFormed.clear (wf : links.WellFormed) : links.clear.WellFormed := by
  refine ⟨wf.sized.clear, ?_, by rw [nodes_clear]; rfl⟩
  intro index bucket found waiter waits
  rw [WaitingLinks.clear, Array.getElem?_replicate] at found
  split at found
  · cases found
    cases waits
  · cases found

/-! ## Deferring -/

theorem Sized.nodes_defer (sized : links.Sized) (guest : GuestAddr) (slot : SlotRef) :
    (links.defer guest slot).nodes.Perm (links.nodes ++ [⟨guest, slot⟩]) := by
  obtain ⟨before, after, split, place⟩ := sized.exists_split guest
  have added : (links.defer guest slot).nodes =
      (before ++ (links.bucket guest ++ [⟨guest, slot⟩]) :: after).flatten :=
    congrArg List.flatten (toList_setBucket split place _)
  rw [added, nodes, split]
  simp only [List.flatten_append, List.flatten_cons, List.append_assoc]
  have moved : ([(⟨guest, slot⟩ : Waiter)] ++ after.flatten).Perm
      (after.flatten ++ [⟨guest, slot⟩]) := List.perm_append_comm
  exact (moved.append_left _).append_left _

theorem WellFormed.defer (wf : links.WellFormed) (guest : GuestAddr) (slot : SlotRef) :
    (links.defer guest slot).WellFormed := by
  refine ⟨wf.sized.defer guest slot, ?_, ?_⟩
  · refine wf.filed_setBucket guest fun waiter waits => ?_
    rcases List.mem_append.1 waits with old | new
    · exact wf.filed_bucket guest waiter old
    · rw [List.mem_singleton.1 new]
  · rw [(wf.sized.nodes_defer guest slot).length_eq, List.length_append, ← wf.pending_eq]
    rfl

/-! ## Completing -/

/-- The waiters for an address are found in its bucket alone. -/
theorem WellFormed.filter_nodes (wf : links.WellFormed) (guest : GuestAddr) :
    links.nodes.filter (fun waiter => waiter.guest = guest) =
      (links.bucket guest).filter fun waiter => waiter.guest = guest := by
  obtain ⟨before, after, split, place⟩ := wf.sized.exists_split guest
  have early : before.flatten.filter (fun waiter => decide (waiter.guest = guest)) = [] :=
    List.filter_eq_nil_iff.2 fun waiter member =>
      by simpa using wf.guest_ne split place (Or.inl member)
  have late : after.flatten.filter (fun waiter => decide (waiter.guest = guest)) = [] :=
    List.filter_eq_nil_iff.2 fun waiter member =>
      by simpa using wf.guest_ne split place (Or.inr member)
  rw [nodes, split, List.flatten_append, List.flatten_cons, List.filter_append,
    List.filter_append, early, late, List.append_nil, List.nil_append]

theorem WellFormed.waiters_eq (wf : links.WellFormed) (guest : GuestAddr) :
    links.waiters guest =
      (links.nodes.filter fun waiter => waiter.guest = guest).map Waiter.slot := by
  rw [wf.filter_nodes guest]
  rfl

theorem WellFormed.nodes_complete (wf : links.WellFormed) (guest : GuestAddr) :
    (links.complete guest).2.nodes = links.nodes.filter fun waiter => waiter.guest ≠ guest := by
  obtain ⟨before, after, split, place⟩ := wf.sized.exists_split guest
  have kept : (links.complete guest).2.nodes =
      (before ++ (links.bucket guest).filter (fun waiter => waiter.guest ≠ guest) ::
        after).flatten :=
    congrArg List.flatten (toList_setBucket split place _)
  have early : before.flatten.filter (fun waiter => decide (waiter.guest ≠ guest)) =
      before.flatten :=
    List.filter_eq_self.2 fun waiter member =>
      decide_eq_true (wf.guest_ne split place (Or.inl member))
  have late : after.flatten.filter (fun waiter => decide (waiter.guest ≠ guest)) =
      after.flatten :=
    List.filter_eq_self.2 fun waiter member =>
      decide_eq_true (wf.guest_ne split place (Or.inr member))
  rw [kept, nodes, split, List.flatten_append, List.flatten_cons, List.flatten_append,
    List.flatten_cons, List.filter_append, List.filter_append, early, late]

/-- What is completed and what is kept make up the table. -/
theorem WellFormed.length_waiters (wf : links.WellFormed) (guest : GuestAddr) :
    (links.waiters guest).length + (links.complete guest).2.nodes.length =
      links.nodes.length := by
  have split : links.nodes.length = _ :=
    List.length_eq_countP_add_countP fun waiter => waiter.guest = guest
  rw [wf.waiters_eq guest, wf.nodes_complete guest, List.length_map, split,
    List.countP_eq_length_filter, List.countP_eq_length_filter]
  simp

theorem WellFormed.complete (wf : links.WellFormed) (guest : GuestAddr) :
    (links.complete guest).2.WellFormed := by
  refine ⟨wf.sized.complete guest, ?_, ?_⟩
  · refine wf.filed_setBucket guest fun waiter waits => ?_
    exact wf.filed_bucket guest waiter (List.mem_filter.1 waits |>.1)
  · have counted := wf.length_waiters guest
    change links.pending - (links.waiters guest).length = _
    rw [wf.pending_eq]
    omega

end TransferCache.WaitingLinks
