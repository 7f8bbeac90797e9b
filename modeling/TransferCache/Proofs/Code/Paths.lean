import Mathlib.Data.List.Chain
import TransferCache.Proofs.Code.Visits

/-!
# Control paths

A control path goes through an operation list as branches allow, whatever the registers hold: a
branch may be taken or not, and only a path that reaches the end of the list, or leaves, is over.
Every run follows one (`Executes.follows`).

Whether each register is written before it is read, on all of these paths, is found out by reading
the list once from left to right, and both ways on from every branch (`Settled`).

* `Settled.writtenFirst`: what this reading finds holds on all control paths.
* `WrittenFirst.run_ne_unsetTemp`: then no run meets an unset register.
-/

namespace TransferCache.Code

def Op.leaves : Op → Bool
  | .leave _ => true
  | _ => false

/-- Control may go from one position to another. -/
inductive Follows (ops : Array Op) : Nat → Nat → Prop
  | next {position : Nat} {op : Op} (here : ops[position]? = some op) (stays : op.leaves = false) :
    Follows ops position (position + 1)
  | jump {position place : Nat} {op : Op} {label : Label} (here : ops[position]? = some op)
    (names : op.target? = some label) (there : ops[place]? = some (.label label)) :
    Follows ops position (place + 1)

/-- The positions that control may pass through from one on, in order. -/
structure ControlPath (ops : Array Op) (start : Nat) (path : List Nat) : Prop where
  starts : path.head? = some start
  follows : path.IsChain (Follows ops)

/-- One of some positions has an operation that writes the register. -/
def WrittenAt (ops : Array Op) (positions : List Nat) (temp : Temp) : Prop :=
  ∃ position ∈ positions, ∃ op, ops[position]? = some op ∧ op.writes? = some temp

/-- On every control path from a position on, a register that is read is a given one, or one that
has been written on the way. -/
def WrittenFirst (ops : Array Op) (given : List Temp) (start : Nat) : Prop :=
  ∀ front position op, ControlPath ops start (front ++ [position]) → ops[position]? = some op →
    ∀ temp ∈ op.reads, temp ∈ given ∨ WrittenAt ops front temp

variable {ops : Array Op} {labels : Labels} {given : List Temp} {start : Nat}

/-! ## Runs follow control paths -/

/-- A label that is resolved has been placed. -/
theorem exists_place_of_position (accepted : Labels.ofOps ops = .ok labels) {label : Label}
    {position : Nat} (found : labels.position label = .ok position) :
    ∃ place, ops[place]? = some (.label label) ∧ position = place + 1 := by
  have distinct := (nodup_of_collect accepted).1
  obtain ⟨final, collected, kept, -⟩ :=
    collect_eq_ok distinct 0 fun label _ => Numbered.find?_empty label.number.toNat
  obtain ⟨same, acceptedToo, resolves⟩ := ofOps_eq_ok distinct
  cases accepted.symm.trans acceptedToo
  cases collected.symm.trans accepted
  by_cases member : label ∈ placed ops.toList
  · obtain ⟨before, after, split⟩ := exists_split_of_mem_placed member
    cases found.symm.trans (resolves before label after split)
    refine ⟨before.length, ?_, rfl⟩
    rw [← Array.getElem?_toList, split, List.getElem?_append_right (Nat.le_refl _), Nat.sub_self]
    rfl
  · unfold Labels.position at found
    rw [kept label member, Numbered.find?_empty] at found
    cases found

theorem Goes.follows (accepted : Labels.ofOps ops = .ok labels) {first second : Point}
    (goes : Goes ops labels first second) : Follows ops first.position second.position := by
  cases goes with
  | @next position machine after op here stepped =>
    refine .next here ?_
    cases op with
    | leave target =>
      obtain ⟨word, -, ran⟩ := exists_of_bind_eq_ok stepped
      cases ran
    | _ => rfl
  | @jump position target machine after op here stepped =>
    cases straight : op.target? with
    | none => exact absurd rfl (flow_ne_jump straight stepped target)
    | some label =>
      cases op with
      | branch condition lhs rhs named =>
        cases straight
        rcases Goes.of_branch here (.jump here stepped) with ⟨-, next⟩ | ⟨-, place, found, jumped⟩
        · cases next
          exact .next here rfl
        · cases jumped
          obtain ⟨place, there, rfl⟩ := exists_place_of_position accepted found
          exact .jump here rfl there
      | _ => cases straight

/-- What operations on the way have written is set, and so is what was set before. -/
theorem Executes.follows (accepted : Labels.ofOps ops = .ok labels) {count : Nat}
    {first last : Point} (executed : Executes ops labels count first last) :
    ∃ front, ControlPath ops first.position (front ++ [last.position]) ∧
      ∀ temp, (first.machine.temp? temp).isSome ∨ WrittenAt ops front temp →
        (last.machine.temp? temp).isSome := by
  induction executed with
  | none point =>
    refine ⟨[], ⟨rfl, List.isChain_singleton _⟩, fun temp known => known.resolve_right ?_⟩
    rintro ⟨position, member, -⟩
    cases member
  | @more count first second last goes rest ih =>
    obtain ⟨front, ⟨starts, follows⟩, kept⟩ := ih
    refine ⟨first.position :: front, ⟨rfl, List.isChain_cons.2 ⟨?_, follows⟩⟩, ?_⟩
    · intro next head
      cases starts.symm.trans head
      exact goes.follows accepted
    · intro temp known
      have sets : ∃ op, ops[first.position]? = some op ∧
          SetsOnly op.writes? first.machine second.machine := by
        cases goes with
        | next here stepped => exact ⟨_, here, setsOnly_of_step stepped⟩
        | jump here stepped => exact ⟨_, here, setsOnly_of_step stepped⟩
      obtain ⟨op, here, sets⟩ := sets
      rcases known with set | ⟨position, member, other, found, writes⟩
      · exact kept temp (Or.inl (sets.isSome (Or.inl set)))
      · rcases List.mem_cons.1 member with rfl | later
        · cases here.symm.trans found
          exact kept temp (Or.inl (sets.isSome (Or.inr writes)))
        · exact kept temp (Or.inr ⟨position, later, other, found, writes⟩)

/-- A run meets no unset register if each is written before it is read, and the given ones are set
to begin with. -/
theorem WrittenFirst.run_ne_unsetTemp (first : WrittenFirst ops given 0) {machine : Machine}
    (set : ∀ temp ∈ given, (machine.temp? temp).isSome) (temp : Temp) :
    (machine.run ops).1 ≠ .error (.unsetTemp temp) := by
  cases collected : Labels.ofOps ops with
  | error fault =>
    rw [Machine.run_of_refused collected]
    obtain ⟨place, rfl, -⟩ := duplicate_of_collect collected
    exact fun same => nomatch same
  | ok labels =>
    rw [Machine.run_eq_runFrom collected]
    have concludes := runFrom_concludes ops labels stepBound 0 machine
    generalize Machine.runFrom ops labels stepBound 0 machine = ended at concludes
    cases concludes with
    | done executed ends _ =>
      cases ends with
      | off _ => exact fun same => nomatch same
      | leave _ _ => exact fun same => nomatch same
      | @fault position reached op fault here failed =>
        rintro same
        cases same
        obtain ⟨reads, unset⟩ := fault_cause failed
        obtain ⟨front, path, kept⟩ := executed.follows collected
        have known := (first front position op path here temp reads).imp_left (set temp)
        have held := kept temp known
        rw [unset] at held
        cases held
    | cutOff _ _ => exact fun same => nomatch same

/-! ## Reading a list both ways -/

/-- Each register is read only where it is known to have been written: it is a given one, or an
operation before writes it. The second argument is the label that is being skipped to, if there is
one. A branch is read on as if it were taken, and as if it were not. -/
def Settled : List Temp → Option Label → List Op → Prop
  | _, _, [] => True
  | given, some label, op :: ops =>
    if op.place? = some label then Settled given none ops else Settled given (some label) ops
  | given, none, op :: ops =>
    (∀ temp ∈ op.reads, temp ∈ given) ∧
      (∀ label, op.target? = some label → Settled given (some label) ops) ∧
      (op.leaves = false → Settled (op.writes?.toList ++ given) none ops)

theorem settled_skip {op : Op} {label : Label} (elsewhere : op.place? ≠ some label)
    (ops : List Op) : Settled given (some label) (op :: ops) ↔ Settled given (some label) ops :=
  Iff.of_eq (if_neg elsewhere)

theorem settled_place (label : Label) (ops : List Op) :
    Settled given (some label) (.label label :: ops) ↔ Settled given none ops :=
  Iff.of_eq (if_pos rfl)

/-- It does no harm to know of more registers. -/
theorem Settled.mono {ops : List Op} {skipping : Option Label}
    (settled : Settled given skipping ops) {more : List Temp} (subset : given ⊆ more) :
    Settled more skipping ops := by
  induction ops generalizing given more skipping with
  | nil => trivial
  | cons op ops ih =>
    cases skipping with
    | some label =>
      by_cases here : op.place? = some label
      · obtain rfl := Op.eq_label_of_place? here
        exact (settled_place label ops).2 (ih ((settled_place label ops).1 settled) subset)
      · exact (settled_skip here ops).2 (ih ((settled_skip here ops).1 settled) subset)
    | none =>
      obtain ⟨reads, taken, passed⟩ := settled
      refine ⟨fun temp member => subset (reads temp member), ?_, fun stays => ?_⟩
      · exact fun label names => ih (taken label names) subset
      · refine ih (passed stays) fun temp member => List.mem_append.2 ?_
        exact (List.mem_append.1 member).imp_right fun known => subset known

theorem settled_append_of_leads {ops more : List Op} (leads : LeadsForward ops)
    (settledMore : Settled given none more) :
    (Settled given none ops → Settled given none (ops ++ more)) ∧
      ∀ label ∈ placed ops, Settled given (some label) ops →
        Settled given (some label) (ops ++ more) := by
  -- a branch turns reading into skipping, and its label turns it back, so both go together
  induction ops generalizing given with
  | nil => exact ⟨fun _ => settledMore, fun label member => nomatch member⟩
  | cons op ops ih =>
    obtain ⟨first, rest⟩ := leads
    rw [List.cons_append]
    refine ⟨?_, fun label member settled => ?_⟩
    · rintro ⟨reads, taken, passed⟩
      refine ⟨reads, fun label names => ?_, fun stays => ?_⟩
      · exact (ih rest settledMore).2 label (first label names) (taken label names)
      · exact (ih rest (settledMore.mono (List.subset_append_right _ _))).1 (passed stays)
    · by_cases here : op.place? = some label
      · obtain rfl := Op.eq_label_of_place? here
        exact (settled_place label _).2
          ((ih rest settledMore).1 ((settled_place label _).1 settled))
      · exact (settled_skip here _).2
          ((ih rest settledMore).2 label (mem_placed_tail member here)
            ((settled_skip here _).1 settled))

/-- One list after another, if no branch leads out of the first. -/
theorem Settled.append {ops more : List Op} (leads : LeadsForward ops)
    (settled : Settled given none ops) (settledMore : Settled given none more) :
    Settled given none (ops ++ more) :=
  (settled_append_of_leads leads settledMore).1 settled

/-! ## All control paths -/

/-- It is enough to look at the first operation, and at wherever control may go from there. -/
theorem WrittenFirst.cons (here : ∀ op, ops[start]? = some op → ∀ temp ∈ op.reads, temp ∈ given)
    (later : ∀ op next, ops[start]? = some op → Follows ops start next →
      WrittenFirst ops (op.writes?.toList ++ given) next) : WrittenFirst ops given start := by
  rintro front position op ⟨starts, follows⟩ found temp reads
  cases front with
  | nil =>
    cases starts
    exact Or.inl (here op found temp reads)
  | cons first front =>
    cases starts
    obtain ⟨next, head⟩ : ∃ next, (front ++ [position]).head? = some next := by
      cases front <;> exact ⟨_, rfl⟩
    obtain ⟨links, follows⟩ := List.isChain_cons.1 follows
    have goes : Follows ops start next := links next head
    obtain ⟨opening, opens⟩ : ∃ opening, ops[start]? = some opening := by
      cases goes with
      | next here _ => exact ⟨_, here⟩
      | jump here _ _ => exact ⟨_, here⟩
    rcases later opening next opens goes front position op ⟨head, follows⟩ found temp reads with
      known | ⟨place, member, earlier⟩
    · rcases List.mem_append.1 known with written | known
      · exact Or.inr ⟨start, List.mem_cons_self, opening, opens, Option.mem_toList.1 written⟩
      · exact Or.inl known
    · exact Or.inr ⟨place, List.mem_cons_of_mem _ member, earlier⟩

/-- From any position on, control goes where the reading of the rest of the list goes; and so it
does from the place of a label that is still ahead. -/
theorem writtenFirst_of_settled (resolves : Resolves labels ops.toList) {rest : List Op}
    (leads : LeadsForward rest) {before : List Op} (split : ops.toList = before ++ rest) :
    (Settled given none rest → WrittenFirst ops given before.length) ∧
      ∀ label ∈ placed rest, ∀ place, ops[place]? = some (.label label) →
        Settled given (some label) rest → WrittenFirst ops given (place + 1) := by
  -- labels are placed once, so the place that a branch leads to lies in the rest of the list
  induction rest generalizing before given with
  | nil =>
    refine ⟨fun _ => ?_, fun label member => nomatch member⟩
    have ended : ops[before.length]? = none := by
      rw [← Array.getElem?_toList, split, List.append_nil]
      exact List.getElem?_eq_none (Nat.le_refl _)
    refine .cons (fun op found => nomatch ended.symm.trans found) fun op next found _ => ?_
    cases ended.symm.trans found
  | cons op rest ih =>
    obtain ⟨first, leads⟩ := leads
    have further : ops.toList = (before ++ [op]) ++ rest := by rw [split, List.append_assoc]; rfl
    have length : (before ++ [op]).length = before.length + 1 := List.length_append
    have here : ops[before.length]? = some op := by
      rw [← Array.getElem?_toList, split, List.getElem?_append_right (Nat.le_refl _),
        Nat.sub_self, List.getElem?_cons_zero]
    refine ⟨?_, fun label member place there settled => ?_⟩
    · rintro ⟨reads, taken, passed⟩
      refine .cons (fun other found => ?_) fun other next found goes => ?_
      · cases here.symm.trans found
        exact reads
      · cases here.symm.trans found
        cases goes with
        | next found stays =>
          cases here.symm.trans found
          rw [← length]
          exact (ih leads further).1 (passed stays)
        | @jump place _ label found names there =>
          cases here.symm.trans found
          have settled := (taken label names).mono (List.subset_append_right op.writes?.toList _)
          exact (ih leads further).2 label (first label names) place there settled
    · by_cases places : op.place? = some label
      · obtain rfl := Op.eq_label_of_place? places
        cases (resolves.position_eq here).symm.trans (resolves.position_eq there)
        rw [← length]
        exact (ih leads further).1 ((settled_place label rest).1 settled)
      · exact (ih leads further).2 label (mem_placed_tail member places) place there
          ((settled_skip places rest).1 settled)

/-- What reading a list both ways finds holds on all its control paths. -/
theorem Settled.writtenFirst (settled : Settled given none ops.toList)
    (leads : LeadsForward ops.toList) (distinct : (placed ops.toList).Nodup) :
    WrittenFirst ops given 0 := by
  obtain ⟨labels, -, resolves⟩ := ofOps_eq_ok distinct
  have whole : ops.toList = [] ++ ops.toList := rfl
  exact (writtenFirst_of_settled resolves leads whole).1 settled

end TransferCache.Code
