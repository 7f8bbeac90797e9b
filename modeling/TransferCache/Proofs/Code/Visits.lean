import TransferCache.Proofs.Code.Registers
import TransferCache.Proofs.Code.Throughout

/-!
# Which operations a run executes

A run executes the operation at its position, and then goes on at the next position, at the place of
a label, or not at all. An operation counts as executed also when it leaves or faults; an operation
that the budget is not enough for does not.

* `getElem?_visitsFrom`: the positions listed by `visitsFrom` are those that `Executes` passes
  through.
* `runFrom_of_enough`: a budget that is enough for all of them leads to the same end as any larger
  one.
* `BranchesForward.visits_increase`, `BranchesForward.run_ne_noExit`: where every branch leads
  forward, no position is executed twice, and no run of a list within the bound is cut off.
-/

namespace TransferCache.Code

namespace Machine

/-- The positions of the operations that a run executes, in order, repetitions included. -/
def visitsFrom (ops : Array Op) (labels : Labels) : Nat → Nat → Machine → List Nat
  | budget, position, machine =>
    match ops[position]? with
    | none => []
    | some op =>
      match budget with
      | 0 => []
      | budget + 1 =>
        match machine.step labels op with
        | .error _ => [position]
        | .ok (.next, after) => position :: visitsFrom ops labels budget (position + 1) after
        | .ok (.jump target, after) => position :: visitsFrom ops labels budget target after
        | .ok (.leave _, _) => [position]

/-- The positions that running an operation list executes, in order. Nothing of a refused list is
executed. -/
def visits (machine : Machine) (ops : Array Op) : List Nat :=
  match Labels.ofOps ops with
  | .error _ => []
  | .ok labels => visitsFrom ops labels stepBound 0 machine

theorem visits_eq_visitsFrom {ops : Array Op} {labels : Labels}
    (accepted : Labels.ofOps ops = .ok labels) (machine : Machine) :
    machine.visits ops = visitsFrom ops labels stepBound 0 machine := by
  unfold visits
  rw [accepted]

end Machine

variable {ops : Array Op} {labels : Labels} {budget count position place : Nat}
  {machine after : Machine} {op : Op}

/-! ## Runs that go on -/

theorem runFrom_of_beyond (beyond : ops[position]? = none) :
    Machine.runFrom ops labels budget position machine = (.ok .fallThrough, machine) := by
  unfold Machine.runFrom
  rw [beyond]

theorem visitsFrom_of_beyond (beyond : ops[position]? = none) :
    Machine.visitsFrom ops labels budget position machine = [] := by
  unfold Machine.visitsFrom
  rw [beyond]

theorem runFrom_succ (here : ops[position]? = some op) :
    Machine.runFrom ops labels (budget + 1) position machine =
      match machine.step labels op with
      | .error fault => (.error fault, machine)
      | .ok (.next, after) => Machine.runFrom ops labels budget (position + 1) after
      | .ok (.jump target, after) => Machine.runFrom ops labels budget target after
      | .ok (.leave host, after) => (.ok (.leave host), after) := by
  have opened := Machine.runFrom.eq_def ops labels (budget + 1) position machine
  simp only [here] at opened
  exact opened

theorem visitsFrom_succ (here : ops[position]? = some op) :
    Machine.visitsFrom ops labels (budget + 1) position machine =
      match machine.step labels op with
      | .error _ => [position]
      | .ok (.next, after) => position :: Machine.visitsFrom ops labels budget (position + 1) after
      | .ok (.jump target, after) => position :: Machine.visitsFrom ops labels budget target after
      | .ok (.leave _, _) => [position] := by
  have opened := Machine.visitsFrom.eq_def ops labels (budget + 1) position machine
  simp only [here] at opened
  exact opened

/-! ## Listing and executing -/

theorem executes_zero_iff {start last : Point} :
    Executes ops labels 0 start last ↔ last = start := by
  constructor
  · intro executed
    cases executed
    rfl
  · rintro rfl
    exact .none last

theorem executes_succ_iff {start last : Point} :
    Executes ops labels (count + 1) start last ↔
      ∃ second, Goes ops labels start second ∧ Executes ops labels count second last := by
  refine ⟨fun executed => ?_, fun ⟨second, goes, rest⟩ => .more goes rest⟩
  cases executed with
  | more goes rest => exact ⟨_, goes, rest⟩

/-- A run goes on as its next operation says. -/
theorem goes_iff (here : ops[position]? = some op) {second : Point} :
    Goes ops labels ⟨position, machine⟩ second ↔
      machine.step labels op = .ok (.next, second.machine) ∧ second.position = position + 1 ∨
      machine.step labels op = .ok (.jump second.position, second.machine) := by
  constructor
  · intro goes
    cases goes with
    | next found stepped =>
      cases here.symm.trans found
      exact Or.inl ⟨stepped, rfl⟩
    | jump found stepped =>
      cases here.symm.trans found
      exact Or.inr stepped
  · obtain ⟨target, after⟩ := second
    rintro (⟨stepped, rfl⟩ | stepped)
    · exact .next here stepped
    · exact .jump here stepped

theorem not_goes_of_beyond (beyond : ops[position]? = none) {second : Point} :
    ¬Goes ops labels ⟨position, machine⟩ second := by
  intro goes
  cases goes with
  | next found _ => cases beyond.symm.trans found
  | jump found _ => cases beyond.symm.trans found

/-- The operations that are listed are those that the run passes through within its budget. -/
theorem getElem?_visitsFrom :
    (Machine.visitsFrom ops labels budget position machine)[count]? = some place ↔
      count < budget ∧ place < ops.size ∧
        ∃ reached, Executes ops labels count ⟨position, machine⟩ ⟨place, reached⟩ := by
  induction budget generalizing position machine count with
  | zero =>
    unfold Machine.visitsFrom
    cases ops[position]? <;> simp
  | succ budget ih =>
    cases here : ops[position]? with
    | none =>
      have outside : ops.size ≤ position := Array.getElem?_eq_none_iff.1 here
      rw [visitsFrom_of_beyond here]
      cases count with
      | zero =>
        simp only [executes_zero_iff, Point.mk.injEq, List.getElem?_nil, reduceCtorEq, false_iff]
        omega
      | succ count => simp [executes_succ_iff, not_goes_of_beyond here]
    | some op =>
      have inside : position < ops.size := (Array.getElem?_eq_some_iff.1 here).1
      rw [visitsFrom_succ here]
      -- the run is at the first position listed, and the others are listed from where it goes on
      cases count with
      | zero =>
        have first : ∀ rest : List Nat, (position :: rest)[0]? = some place ↔ place = position :=
          fun rest => by simp [eq_comm]
        have only : place = position ↔ 0 < budget + 1 ∧ place < ops.size ∧
            ∃ reached, Executes ops labels 0 ⟨position, machine⟩ ⟨place, reached⟩ := by
          simp only [executes_zero_iff, Point.mk.injEq]
          constructor
          · rintro rfl
            exact ⟨Nat.succ_pos _, inside, machine, rfl, rfl⟩
          · exact fun ⟨_, _, _, same, _⟩ => same
        split <;> exact (first _).trans only
      | succ count =>
        have continues : ∀ {target after},
            (∀ second, Goes ops labels ⟨position, machine⟩ second ↔ second = ⟨target, after⟩) →
            ((position :: Machine.visitsFrom ops labels budget target after)[count + 1]? =
                some place ↔
              count + 1 < budget + 1 ∧ place < ops.size ∧ ∃ reached,
                Executes ops labels (count + 1) ⟨position, machine⟩ ⟨place, reached⟩) := by
          intro target after only
          rw [List.getElem?_cons_succ, ih]
          simp only [executes_succ_iff, only, exists_eq_left, Nat.succ_lt_succ_iff]
        cases stepped : machine.step labels op with
        | error fault => simp [executes_succ_iff, goes_iff here, stepped]
        | ok outcome =>
          obtain ⟨flow, after⟩ := outcome
          cases flow with
          | leave host => simp [executes_succ_iff, goes_iff here, stepped]
          | next =>
            refine continues fun second => ?_
            cases second
            simp [goes_iff here, stepped, eq_comm, and_comm]
          | jump target =>
            refine continues fun second => ?_
            cases second
            simp [goes_iff here, stepped, eq_comm]

/-! ## Enough budget -/

/-- A budget that is enough for all operations executed leads to the same end as a larger one. -/
theorem runFrom_of_enough {larger : Nat} (smaller : budget ≤ larger)
    (enough : (Machine.visitsFrom ops labels larger position machine).length ≤ budget) :
    Machine.runFrom ops labels budget position machine =
      Machine.runFrom ops labels larger position machine := by
  induction larger generalizing budget position machine with
  | zero => rw [Nat.le_zero.1 smaller]
  | succ larger ih =>
    cases here : ops[position]? with
    | none => rw [runFrom_of_beyond here, runFrom_of_beyond here]
    | some op =>
      rw [visitsFrom_succ here] at enough
      cases budget with
      | zero =>
        split at enough <;> cases enough
      | succ budget =>
        rw [runFrom_succ here, runFrom_succ here]
        cases stepped : machine.step labels op with
        | error fault => rfl
        | ok outcome =>
          rw [stepped] at enough
          obtain ⟨flow, after⟩ := outcome
          cases flow with
          | leave host => rfl
          | next => exact ih (Nat.le_of_succ_le_succ smaller) (Nat.le_of_succ_le_succ enough)
          | jump target => exact ih (Nat.le_of_succ_le_succ smaller) (Nat.le_of_succ_le_succ enough)

/-! ## Branches that lead forward -/

/-- Every branch names a label that has one place, and that place is further on. -/
def BranchesForward (ops : Array Op) : Prop :=
  ∀ (position : Nat) (op : Op) (label : Label), ops[position]? = some op → op.target? = some label →
    ∃ place, position < place ∧ ops[place]? = some (.label label) ∧
      ∀ other, ops[other]? = some (.label label) → other = place

theorem Resolves.position_eq (resolves : Resolves labels ops.toList) {label : Label}
    (there : ops[place]? = some (.label label)) : labels.position label = .ok (place + 1) := by
  rw [← Array.getElem?_toList] at there
  obtain ⟨inside, found⟩ := List.getElem?_eq_some_iff.1 there
  have split := (List.take_append_drop place ops.toList).symm
  rw [List.drop_eq_getElem_cons inside, found] at split
  rw [resolves _ label _ split, List.length_take, Nat.min_eq_left (Nat.le_of_lt inside)]

theorem LeadsForward.mem_placed_drop {ops : List Op} (leads : LeadsForward ops) {label : Label}
    (here : ops[position]? = some op) (names : op.target? = some label) :
    label ∈ placed (ops.drop (position + 1)) := by
  induction ops generalizing position with
  | nil => cases here
  | cons first ops ih =>
    cases position with
    | zero =>
      cases here
      exact leads.1 label names
    | succ position => exact ih leads.2 here

theorem LeadsForward.branchesForward (leads : LeadsForward ops.toList)
    (distinct : (placed ops.toList).Nodup) : BranchesForward ops := by
  intro position op label here names
  obtain ⟨labels, -, resolves⟩ := ofOps_eq_ok distinct
  rw [← Array.getElem?_toList] at here
  obtain ⟨before, after, split⟩ := exists_split_of_mem_placed (leads.mem_placed_drop here names)
  have there : ops[position + 1 + before.length]? = some (.label label) := by
    rw [← Array.getElem?_toList, ← List.getElem?_drop, split,
      List.getElem?_append_right (Nat.le_refl _), Nat.sub_self]
    rfl
  refine ⟨_, by omega, there, fun other found => ?_⟩
  have same := (resolves.position_eq found).symm.trans (resolves.position_eq there)
  cases same
  rfl

namespace BranchesForward

theorem goes_lt (forward : BranchesForward ops) (resolves : Resolves labels ops.toList)
    {first second : Point} (goes : Goes ops labels first second) :
    first.position < second.position := by
  obtain ⟨position, machine⟩ := first
  rcases second with ⟨target, after⟩
  have here : ∃ op, ops[position]? = some op := by
    cases goes with
    | next here _ => exact ⟨_, here⟩
    | jump here _ => exact ⟨_, here⟩
  obtain ⟨op, here⟩ := here
  cases straight : op.target? with
  | none =>
    obtain ⟨after, -, next⟩ := goes.of_target?_eq_none here straight
    cases next
    exact Nat.lt_succ_self position
  | some label =>
    obtain ⟨place, further, there, -⟩ := forward position op label here straight
    cases op with
    | branch condition lhs rhs named =>
      cases straight
      rcases goes.of_branch here with ⟨-, next⟩ | ⟨-, found, resolved, jumped⟩
      · cases next
        exact Nat.lt_succ_self position
      · cases jumped
        cases (resolves.position_eq there).symm.trans resolved
        exact Nat.lt_succ_of_lt further
    | _ => cases straight

/-- A run moves ahead by one position at least with each operation. -/
theorem executes_le (forward : BranchesForward ops) (resolves : Resolves labels ops.toList)
    {start last : Point} (executed : Executes ops labels count start last) :
    start.position + count ≤ last.position := by
  induction executed with
  | none point => exact Nat.le_refl _
  | more goes _ ih =>
    have ahead := forward.goes_lt resolves goes
    omega

theorem le_of_mem_visitsFrom (forward : BranchesForward ops)
    (resolves : Resolves labels ops.toList)
    (member : place ∈ Machine.visitsFrom ops labels budget position machine) :
    position ≤ place := by
  obtain ⟨count, listed⟩ := List.mem_iff_getElem?.1 member
  obtain ⟨-, -, reached, executed⟩ := getElem?_visitsFrom.1 listed
  exact Nat.le_of_add_right_le (forward.executes_le resolves executed)

theorem visitsFrom_increase (forward : BranchesForward ops)
    (resolves : Resolves labels ops.toList) (budget position : Nat) (machine : Machine) :
    (Machine.visitsFrom ops labels budget position machine).Pairwise (· < ·) := by
  induction budget generalizing position machine with
  | zero =>
    unfold Machine.visitsFrom
    split <;> exact List.Pairwise.nil
  | succ budget ih =>
    cases here : ops[position]? with
    | none =>
      rw [visitsFrom_of_beyond here]
      exact List.Pairwise.nil
    | some op =>
      rw [visitsFrom_succ here]
      split
      · exact List.pairwise_singleton _ _
      · refine List.pairwise_cons.2 ⟨fun later member => ?_, ih _ _⟩
        exact forward.le_of_mem_visitsFrom resolves member
      · next jumped =>
        have further := forward.goes_lt resolves (.jump here jumped)
        refine List.pairwise_cons.2 ⟨fun later member => ?_, ih _ _⟩
        exact Nat.lt_of_lt_of_le further (forward.le_of_mem_visitsFrom resolves member)
      · exact List.pairwise_singleton _ _

/-- Whatever the machine, no position is executed twice: each lies behind the one before it. -/
theorem visits_increase (forward : BranchesForward ops) (machine : Machine) :
    (machine.visits ops).Pairwise (· < ·) := by
  cases collected : Labels.ofOps ops with
  | error fault =>
    unfold Machine.visits
    rw [collected]
    exact List.Pairwise.nil
  | ok labels =>
    obtain ⟨found, accepted, resolves⟩ := ofOps_eq_ok (nodup_of_collect collected).1
    cases collected.symm.trans accepted
    rw [Machine.visits_eq_visitsFrom accepted]
    exact forward.visitsFrom_increase resolves stepBound 0 machine

/-- A list that is no longer than the bound is never cut off. -/
theorem run_ne_noExit (forward : BranchesForward ops) (short : ops.size ≤ stepBound)
    (machine : Machine) : (machine.run ops).1 ≠ .error .noExit := by
  cases collected : Labels.ofOps ops with
  | error fault =>
    rw [Machine.run_of_refused collected]
    obtain ⟨place, rfl, -⟩ := duplicate_of_collect collected
    exact fun same => nomatch same
  | ok labels =>
    obtain ⟨found, accepted, resolves⟩ := ofOps_eq_ok (nodup_of_collect collected).1
    cases collected.symm.trans accepted
    rw [Machine.run_eq_runFrom accepted]
    have concludes := runFrom_concludes ops labels stepBound 0 machine
    generalize Machine.runFrom ops labels stepBound 0 machine = ended at concludes
    cases concludes with
    | done _ ends _ =>
      cases ends with
      | off _ => exact fun same => nomatch same
      | leave _ _ => exact fun same => nomatch same
      | fault _ failed =>
        rintro same
        cases same
        exact fault_cause failed
    | cutOff executed here =>
      have ahead := forward.executes_le resolves executed
      have inside := (Array.getElem?_eq_some_iff.1 here).1
      dsimp only at ahead
      omega

end BranchesForward

end TransferCache.Code
