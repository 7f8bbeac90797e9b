import TransferCache.Shadow.Slot

/-!
# Links that wait for their block

A call site compiled before the block at its return address leaves its slot unresolved. The table
remembers which slots wait for which address, in buckets chosen by `GuestAddr.foldBits`, and gives
the slots back in the order they were deferred once the block is registered.

`WaitingLinks.waiters` is the view of a table: the slots that wait for an address, oldest first.
-/

namespace TransferCache

/-- A slot that waits for the block at `guest`. -/
structure Waiter where
  guest : GuestAddr
  slot : SlotRef
  deriving DecidableEq, Repr

/-- Buckets of waiters, each oldest first, with their total number. -/
structure WaitingLinks where
  buckets : Array (List Waiter)
  bits : Nat
  pending : Nat
  deriving DecidableEq, Repr

namespace WaitingLinks

/-- A table of empty buckets. -/
def ofBits (bits : Nat) : WaitingLinks := ⟨Array.replicate (tableSize bits) [], bits, 0⟩

/-- The waiters that share the bucket of `guest`. -/
def bucket (links : WaitingLinks) (guest : GuestAddr) : List Waiter :=
  links.buckets[guest.foldBits links.bits]?.getD []

/-- The slots that wait for `guest`, oldest first. -/
def waiters (links : WaitingLinks) (guest : GuestAddr) : List SlotRef :=
  ((links.bucket guest).filter fun waiter => waiter.guest = guest).map Waiter.slot

/-- How many slots wait for `guest`. -/
def waiting (links : WaitingLinks) (guest : GuestAddr) : Nat := (links.waiters guest).length

/-- Replaces the bucket of `guest`. -/
def setBucket (links : WaitingLinks) (guest : GuestAddr) (bucket : List Waiter) : WaitingLinks :=
  { links with buckets := links.buckets.setIfInBounds (guest.foldBits links.bits) bucket }

/-- Lets `slot` wait for the block at `guest`. -/
def defer (links : WaitingLinks) (guest : GuestAddr) (slot : SlotRef) : WaitingLinks :=
  { links.setBucket guest (links.bucket guest ++ [⟨guest, slot⟩]) with
    pending := links.pending + 1 }

/-- Releases every slot that waits for `guest`. Waiters for other addresses stay, in their order. -/
def complete (links : WaitingLinks) (guest : GuestAddr) : List SlotRef × WaitingLinks :=
  let released := links.waiters guest
  let kept := (links.bucket guest).filter fun waiter => waiter.guest ≠ guest
  (released, { links.setBucket guest kept with pending := links.pending - released.length })

/-- Drops every waiter. -/
def clear (links : WaitingLinks) : WaitingLinks :=
  { links with buckets := Array.replicate links.buckets.size [], pending := 0 }

/-! ## What the operations do to the waiters -/

/-- Every address has a bucket. -/
def Sized (links : WaitingLinks) : Prop := links.buckets.size = tableSize links.bits

theorem sized_ofBits (bits : Nat) : (ofBits bits).Sized := Array.size_replicate

theorem Sized.setBucket {links : WaitingLinks} (sized : links.Sized) (guest : GuestAddr)
    (bucket : List Waiter) : (links.setBucket guest bucket).Sized :=
  Array.size_setIfInBounds.trans sized

theorem Sized.defer {links : WaitingLinks} (sized : links.Sized) (guest : GuestAddr)
    (slot : SlotRef) : (links.defer guest slot).Sized :=
  sized.setBucket guest _

theorem Sized.complete {links : WaitingLinks} (sized : links.Sized) (guest : GuestAddr) :
    (links.complete guest).2.Sized :=
  sized.setBucket guest _

theorem Sized.clear {links : WaitingLinks} (sized : links.Sized) : links.clear.Sized :=
  Array.size_replicate.trans sized

@[simp] theorem waiters_ofBits (bits : Nat) (guest : GuestAddr) :
    (ofBits bits).waiters guest = [] := by
  simp [waiters, bucket, ofBits, GuestAddr.foldBits_lt]

@[simp] theorem waiters_clear (links : WaitingLinks) (guest : GuestAddr) :
    links.clear.waiters guest = [] := by
  by_cases inside : guest.foldBits links.bits < links.buckets.size <;>
    simp [waiters, bucket, clear, inside]

/-- A replaced bucket is seen by every address that shares it, and by no other. -/
theorem bucket_setBucket {links : WaitingLinks} (sized : links.Sized) (guest other : GuestAddr)
    (bucket : List Waiter) :
    (links.setBucket guest bucket).bucket other =
      if guest.foldBits links.bits = other.foldBits links.bits then bucket
      else links.bucket other := by
  have inside : guest.foldBits links.bits < links.buckets.size := by
    rw [sized]
    exact guest.foldBits_lt links.bits
  unfold WaitingLinks.bucket WaitingLinks.setBucket
  by_cases shared : guest.foldBits links.bits = other.foldBits links.bits
  · rw [if_pos shared, ← shared]
    simp [inside]
  · rw [if_neg shared]
    simp [shared]

/-- A deferred slot waits behind those that wait for its address already; no other address is
affected, whether or not it shares the bucket. -/
theorem waiters_defer {links : WaitingLinks} (sized : links.Sized) (guest other : GuestAddr)
    (slot : SlotRef) :
    (links.defer guest slot).waiters other =
      if guest = other then links.waiters guest ++ [slot] else links.waiters other := by
  have seen : (links.defer guest slot).bucket other =
      (links.setBucket guest (links.bucket guest ++ [⟨guest, slot⟩])).bucket other := rfl
  unfold waiters
  rw [seen, bucket_setBucket sized]
  by_cases same : guest = other
  · subst same
    simp
  · rw [if_neg same]
    split
    · next shared =>
      have together : links.bucket guest = links.bucket other := by
        unfold WaitingLinks.bucket
        rw [shared]
      simp [together, same]
    · rfl

/-- A completed address has no waiters left; every other address keeps its own. -/
theorem waiters_complete {links : WaitingLinks} (sized : links.Sized) (guest other : GuestAddr) :
    (links.complete guest).2.waiters other =
      if guest = other then [] else links.waiters other := by
  have seen : (links.complete guest).2.bucket other =
      (links.setBucket guest ((links.bucket guest).filter
        fun waiter => waiter.guest ≠ guest)).bucket other := rfl
  unfold waiters
  rw [seen, bucket_setBucket sized]
  by_cases same : guest = other
  · subst same
    simp
  · rw [if_neg same]
    split
    · next shared =>
      have together : links.bucket guest = links.bucket other := by
        unfold WaitingLinks.bucket
        rw [shared]
      rw [together, List.filter_filter]
      congr 1
      refine List.filter_congr fun waiter _ => ?_
      by_cases mine : waiter.guest = other
      · have apart : waiter.guest ≠ guest := fun equal => same (equal.symm.trans mine)
        simp [mine, Ne.symm same]
      · simp [mine]
    · rfl

end WaitingLinks

end TransferCache
