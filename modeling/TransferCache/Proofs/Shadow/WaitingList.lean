import Mathlib.Algebra.BigOperators.Group.Finset.Basic
import Mathlib.Data.List.DropRight
import TransferCache.Proofs.Shadow.Waiters

/-!
# Waiting links are a list of waiters

Buckets spread the waiters of a table over its storage, by a hash that sends many addresses to one
bucket. To whoever defers, completes and clears, a table is one list of waiters in the order in
which they were deferred: completing an address takes out the waiters of that address and leaves the
others where they are.

* `Refines.step`: each operation is the same operation on the list.
* `slotsFor_runOnWaiters`: the list holds for every address what was deferred for it since it was
  last completed or everything was cleared (`LinkAction.deferredSince`).
* `run_refines_waiters`: all of it for every run of an empty table, whatever its size.
-/

namespace TransferCache

/-- An operation of a table of waiting links. -/
inductive LinkAction where
  | defer (guest : GuestAddr) (slot : SlotRef)
  | complete (guest : GuestAddr)
  | clear
  deriving DecidableEq, Repr

/-- The slots that wait for `guest` in a list of waiters, in the order of the list. -/
def Waiter.slotsFor (guest : GuestAddr) (waiters : List Waiter) : List SlotRef :=
  (waiters.filter fun waiter => waiter.guest = guest).map Waiter.slot

namespace LinkAction

/-! ## Lists of waiters -/

/-- An operation on a list of waiters, oldest first: the slots it releases, and the waiters after
it. -/
def onWaiters (waiters : List Waiter) : LinkAction → List SlotRef × List Waiter
  | .defer guest slot => ([], waiters ++ [⟨guest, slot⟩])
  | .complete guest =>
    (Waiter.slotsFor guest waiters, waiters.filter fun waiter => waiter.guest ≠ guest)
  | .clear => ([], [])

/-- Operations on a list of waiters in order, with what each of them releases. -/
def runOnWaiters (waiters : List Waiter) : List LinkAction → List (List SlotRef) × List Waiter
  | [] => ([], waiters)
  | action :: actions =>
    let (released, next) := action.onWaiters waiters
    let (later, last) := runOnWaiters next actions
    (released :: later, last)

/-! ## What has been deferred -/

/-- The slot that an operation defers for `guest`, if it does. -/
def deferredFor? (guest : GuestAddr) : LinkAction → Option SlotRef
  | .defer other slot => if other = guest then some slot else none
  | .complete _ | .clear => none

/-- Nothing waits for `guest` after this operation. -/
def ends (guest : GuestAddr) : LinkAction → Bool
  | .defer .. => false
  | .complete other => other = guest
  | .clear => true

/-- The slots deferred for `guest` by the operations after the last that completed it or cleared
everything, in order. -/
def deferredSince (guest : GuestAddr) (actions : List LinkAction) : List SlotRef :=
  (actions.rtakeWhile fun action => !action.ends guest).filterMap (deferredFor? guest)

theorem deferredSince_concat (guest : GuestAddr) (actions : List LinkAction)
    (action : LinkAction) :
    deferredSince guest (actions ++ [action]) =
      if action.ends guest then []
      else deferredSince guest actions ++ (action.deferredFor? guest).toList := by
  unfold deferredSince
  rw [List.rtakeWhile_concat]
  cases ended : action.ends guest with
  | true => rfl
  | false =>
    simp only [Bool.not_false, if_true, List.filterMap_append, Bool.false_eq_true, if_false]
    cases deferred : action.deferredFor? guest with
    | none => rw [List.filterMap_cons_none deferred]; rfl
    | some slot => rw [List.filterMap_cons_some deferred]; rfl

theorem runOnWaiters_concat (waiters : List Waiter) (actions : List LinkAction)
    (action : LinkAction) :
    (runOnWaiters waiters (actions ++ [action])).2 =
      (action.onWaiters (runOnWaiters waiters actions).2).2 := by
  induction actions generalizing waiters with
  | nil => rfl
  | cons first actions ih => exact ih (first.onWaiters waiters).2

/-- After one more operation an address has no waiters if the operation ends its wait, and otherwise
those it had and the one that the operation defers for it. -/
theorem slotsFor_onWaiters (guest : GuestAddr) (waiters : List Waiter) (action : LinkAction) :
    Waiter.slotsFor guest (action.onWaiters waiters).2 =
      if action.ends guest then []
      else Waiter.slotsFor guest waiters ++ (action.deferredFor? guest).toList := by
  cases action with
  | defer other slot =>
    simp only [onWaiters, ends, deferredFor?, Waiter.slotsFor, List.filter_append, List.map_append,
      Bool.false_eq_true, if_false]
    by_cases same : other = guest
    · simp [same]
    · simp [same]
  | complete other =>
    by_cases same : other = guest
    · simp [onWaiters, ends, Waiter.slotsFor, same]
    · have kept : ∀ waiter ∈ waiters, (decide (waiter.guest = guest) &&
          decide (waiter.guest ≠ other)) = decide (waiter.guest = guest) := by
        intro waiter _
        by_cases mine : waiter.guest = guest
        · simp [mine, Ne.symm same]
        · simp [mine]
      simp only [onWaiters, ends, deferredFor?, Waiter.slotsFor, same, decide_false,
        Bool.false_eq_true, if_false, Option.toList_none, List.append_nil, List.filter_filter,
        List.filter_congr kept]
  | clear => rfl

/-- A list of waiters that starts empty holds for every address what was deferred for it since the
address was last completed or everything was cleared. -/
theorem slotsFor_runOnWaiters (guest : GuestAddr) (actions : List LinkAction) :
    Waiter.slotsFor guest (runOnWaiters [] actions).2 = deferredSince guest actions := by
  induction actions using List.reverseRecOn with
  | nil => rfl
  | append_singleton actions action ih =>
    rw [runOnWaiters_concat, slotsFor_onWaiters, deferredSince_concat, ih]

end LinkAction

namespace WaitingLinks

/-! ## Tables and lists -/

/-- One operation: the slots it releases, and the table after it. -/
def step (links : WaitingLinks) : LinkAction → List SlotRef × WaitingLinks
  | .defer guest slot => ([], links.defer guest slot)
  | .complete guest => links.complete guest
  | .clear => ([], links.clear)

/-- Operations in order, with what each of them releases. -/
def run (links : WaitingLinks) : List LinkAction → List (List SlotRef) × WaitingLinks
  | [] => ([], links)
  | action :: actions =>
    let (released, next) := links.step action
    let (later, last) := next.run actions
    (released :: later, last)

variable {links : WaitingLinks} {waiters : List Waiter}

/-- A table that stands for a list of waiters: it holds them all, and those of each address in the
order of the list. -/
structure Refines (links : WaitingLinks) (waiters : List Waiter) : Prop where
  wf : links.WellFormed
  perm : links.nodes.Perm waiters
  waiters_eq : ∀ guest, links.waiters guest = Waiter.slotsFor guest waiters

theorem refines_ofBits (bits : Nat) : (ofBits bits).Refines [] where
  wf := wellFormed_ofBits bits
  perm := by rw [nodes_ofBits]
  waiters_eq := waiters_ofBits bits

theorem Refines.step (refines : links.Refines waiters) (action : LinkAction) :
    (links.step action).1 = (action.onWaiters waiters).1 ∧
      (links.step action).2.Refines (action.onWaiters waiters).2 := by
  obtain ⟨wf, perm, same⟩ := refines
  have seen : ∀ {after : WaitingLinks},
      (∀ guest, after.waiters guest =
        if action.ends guest then []
        else links.waiters guest ++ (action.deferredFor? guest).toList) →
      ∀ guest, after.waiters guest = Waiter.slotsFor guest (action.onWaiters waiters).2 := by
    intro after shown guest
    rw [shown, LinkAction.slotsFor_onWaiters, same]
  cases action with
  | defer guest slot =>
    refine ⟨rfl, wf.defer guest slot, ?_, seen fun other => ?_⟩
    · exact (wf.sized.nodes_defer guest slot).trans (perm.append_right _)
    · rw [show (links.step (.defer guest slot)).2.waiters other = _ from
        waiters_defer wf.sized guest other slot]
      by_cases apart : guest = other
      · simp [LinkAction.ends, LinkAction.deferredFor?, apart]
      · simp [LinkAction.ends, LinkAction.deferredFor?, apart]
  | complete guest =>
    refine ⟨same guest, wf.complete guest, ?_, seen fun other => ?_⟩
    · rw [show (links.step (.complete guest)).2.nodes = _ from wf.nodes_complete guest]
      exact perm.filter _
    · rw [show (links.step (.complete guest)).2.waiters other = _ from
        waiters_complete wf.sized guest other]
      simp [LinkAction.ends, LinkAction.deferredFor?]
  | clear =>
    refine ⟨rfl, wf.clear, ?_, seen fun other => waiters_clear links other⟩
    rw [show (links.step .clear).2.nodes = _ from nodes_clear links]
    exact List.Perm.refl []

theorem Refines.run (refines : links.Refines waiters) (actions : List LinkAction) :
    (links.run actions).1 = (LinkAction.runOnWaiters waiters actions).1 ∧
      (links.run actions).2.Refines (LinkAction.runOnWaiters waiters actions).2 := by
  induction actions generalizing links waiters with
  | nil => exact ⟨rfl, refines⟩
  | cons action actions ih =>
    obtain ⟨released, next⟩ := refines.step action
    obtain ⟨later, last⟩ := ih next
    exact ⟨congrArg₂ List.cons released later, last⟩

/-! ## Counting waiters -/

/-- As many slots wait as there are waiters in the list. -/
theorem Refines.pending_eq (refines : links.Refines waiters) : links.pending = waiters.length := by
  rw [refines.wf.pending_eq, refines.perm.length_eq]

/-- As many slots wait for an address as waiters in the table name it. -/
theorem WellFormed.waiting_eq_count (wf : links.WellFormed) (guest : GuestAddr) :
    links.waiting guest = (links.nodes.map Waiter.guest).count guest := by
  rw [waiting, wf.waiters_eq guest, List.length_map, ← List.countP_eq_length_filter, List.count,
    List.countP_map]
  exact List.countP_congr fun waiter _ => by simp

/-- The waiters of all addresses together are those that are pending. -/
theorem WellFormed.pending_eq_sum (wf : links.WellFormed) {guests : Finset GuestAddr}
    (all : ∀ guest ∉ guests, links.waiting guest = 0) :
    links.pending = ∑ guest ∈ guests, links.waiting guest := by
  have named : ∀ guest ∈ (links.nodes.map Waiter.guest : Multiset GuestAddr), guest ∈ guests := by
    intro guest member
    by_contra absent
    have none := all guest absent
    rw [wf.waiting_eq_count, List.count_eq_zero] at none
    exact none (Multiset.mem_coe.1 member)
  have counted := Multiset.sum_count_eq_card named
  rw [Multiset.coe_card, List.length_map, ← wf.pending_eq] at counted
  rw [← counted]
  refine Finset.sum_congr rfl fun guest _ => ?_
  rw [Multiset.coe_count, wf.waiting_eq_count]

/-- The bucket of a completed address gets shorter by the released slots. -/
theorem Sized.length_bucket_complete (sized : links.Sized) (guest : GuestAddr) :
    (links.complete guest).1.length + ((links.complete guest).2.bucket guest).length =
      (links.bucket guest).length := by
  have kept : (links.complete guest).2.bucket guest =
      (links.bucket guest).filter fun waiter => waiter.guest ≠ guest := by
    refine (bucket_setBucket sized guest guest _).trans ?_
    rw [if_pos rfl]
  have released : (links.complete guest).1.length =
      ((links.bucket guest).filter fun waiter => waiter.guest = guest).length := List.length_map _
  have split := List.length_eq_length_filter_add (l := links.bucket guest)
    fun waiter => decide (waiter.guest = guest)
  rw [kept, released, split]
  simp only [decide_not, ne_eq]

/-! ## Runs of an empty table -/

/-- Whatever is deferred, completed and cleared in an empty table of any size, each operation
releases what it releases from the list of waiters that starts empty, and as many slots are pending
as the list has waiters, which are those of all addresses together. For every address, the waiters
are what was deferred for it since it was last completed or everything was cleared; that is what
completing it now releases. Its bucket, which exists, and the count of pending slots go down by as
many, and no other address is affected. None of this depends on the number of buckets. -/
theorem run_refines_waiters (bits : Nat) (actions : List LinkAction) :
    let table := (ofBits bits).run actions
    let reached := table.2
    table.1 = (LinkAction.runOnWaiters [] actions).1 ∧
      reached.pending = (LinkAction.runOnWaiters [] actions).2.length ∧
      (∀ guests : Finset GuestAddr, (∀ guest ∉ guests, reached.waiting guest = 0) →
        reached.pending = ∑ guest ∈ guests, reached.waiting guest) ∧
      (∀ guest,
        guest.foldBits reached.bits < reached.buckets.size ∧
        reached.waiters guest = LinkAction.deferredSince guest actions ∧
        reached.waiting guest = (LinkAction.deferredSince guest actions).length ∧
        (reached.complete guest).1 = LinkAction.deferredSince guest actions ∧
        (reached.complete guest).1.length + ((reached.complete guest).2.bucket guest).length =
          (reached.bucket guest).length ∧
        (reached.complete guest).1.length + (reached.complete guest).2.pending =
          reached.pending ∧
        ∀ other ≠ guest, (reached.complete guest).2.waiters other = reached.waiters other) ∧
      ∀ otherBits,
        ((ofBits otherBits).run actions).1 = table.1 ∧
        ((ofBits otherBits).run actions).2.pending = reached.pending ∧
        ∀ guest, ((ofBits otherBits).run actions).2.waiting guest = reached.waiting guest := by
  intro table reached
  have refined := fun bits => (refines_ofBits bits).run actions
  obtain ⟨released, refines⟩ := refined bits
  have since : ∀ guest, reached.waiters guest = LinkAction.deferredSince guest actions := by
    intro guest
    exact (refines.waiters_eq guest).trans (LinkAction.slotsFor_runOnWaiters guest actions)
  have wf := refines.wf
  refine ⟨released, refines.pending_eq, fun guests all => wf.pending_eq_sum all, ?_, ?_⟩
  · intro guest
    refine ⟨?_, since guest, congrArg List.length (since guest), since guest,
      wf.sized.length_bucket_complete guest, ?_, ?_⟩
    · rw [wf.sized]
      exact guest.foldBits_lt reached.bits
    · rw [(wf.complete guest).pending_eq, wf.pending_eq]
      exact wf.length_waiters guest
    · intro other apart
      exact (waiters_complete wf.sized guest other).trans (if_neg (Ne.symm apart))
  · intro otherBits
    obtain ⟨otherReleased, otherRefines⟩ := refined otherBits
    refine ⟨otherReleased.trans released.symm, ?_, fun guest => congrArg List.length ?_⟩
    · exact otherRefines.pending_eq.trans refines.pending_eq.symm
    · exact (otherRefines.waiters_eq guest).trans (refines.waiters_eq guest).symm

/-- Two addresses that share the only bucket wait in turn, and one of them is completed. -/
def colliding : List LinkAction :=
  [.defer ⟨16⟩ ⟨0⟩, .defer ⟨32⟩ ⟨1⟩, .defer ⟨16⟩ ⟨2⟩, .complete ⟨16⟩, .defer ⟨16⟩ ⟨3⟩]

/-- The two slots that waited at the completion are released in order, and all that waits afterwards
is pending. -/
theorem run_refines_waiters_colliding :
    (∀ guest ∉ ({⟨16⟩, ⟨32⟩} : Finset GuestAddr),
      ((ofBits 1).run colliding).2.waiting guest = 0) ∧
      ((ofBits 1).run colliding).1 = [[], [], [], [⟨0⟩, ⟨2⟩], []] ∧
      ((ofBits 1).run colliding).2.pending =
        ∑ guest ∈ ({⟨16⟩, ⟨32⟩} : Finset GuestAddr),
          ((ofBits 1).run colliding).2.waiting guest ∧
      ((ofBits 1).run colliding).2.waiters ⟨32⟩ = [⟨1⟩] := by
  obtain ⟨released, -, total, each, -⟩ := run_refines_waiters 1 colliding
  have all : ∀ guest ∉ ({⟨16⟩, ⟨32⟩} : Finset GuestAddr),
      ((ofBits 1).run colliding).2.waiting guest = 0 := by
    intro guest absent
    rw [Finset.mem_insert, Finset.mem_singleton, not_or] at absent
    obtain ⟨-, -, count, -⟩ := each guest
    rw [count]
    simp [LinkAction.deferredSince, colliding, List.rtakeWhile, LinkAction.ends,
      LinkAction.deferredFor?, Ne.symm absent.1, Ne.symm absent.2]
  exact ⟨all, released, total _ all, (each ⟨32⟩).2.1⟩

end WaitingLinks

end TransferCache
