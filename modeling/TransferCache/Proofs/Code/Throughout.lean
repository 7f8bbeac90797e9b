import TransferCache.Proofs.Code.Confinement
import TransferCache.Proofs.Code.Execution

/-!
# What holds of every executed operation

`forward` says where reading a list ends. `Throughout` says of each operation on the way there that
it meets a condition on the machine that executes it. Operations that are skipped, and those after
the end, are not asked about.

* `throughout_append`: the condition may be shown for one part of a list after the other.
* `Throughout.meetsFrom`: it then holds at every point that a run of the list passes through.
-/

namespace TransferCache.Code

variable {meets : Machine → Op → Prop}

/-- Every operation that reading the list executes meets the condition. As for `forward`, the first
label is the one that is being skipped to. -/
def Throughout (meets : Machine → Op → Prop) : Option Label → List Op → Machine → Prop
  | _, [], _ => True
  | some label, op :: ops, machine =>
    if op.place? = some label then Throughout meets none ops machine
    else Throughout meets (some label) ops machine
  | none, .branch condition lhs rhs target :: ops, machine =>
    meets machine (.branch condition lhs rhs target) ∧
      match machine.taken condition lhs rhs with
      | .error _ => True
      | .ok true => Throughout meets (some target) ops machine
      | .ok false => Throughout meets none ops machine
  | none, op :: ops, machine =>
    meets machine op ∧
      match machine.step .empty op with
      | .error _ => True
      | .ok (.leave _, _) => True
      | .ok (_, after) => Throughout meets none ops after

/-! ## One operation after another -/

section

variable {machine : Machine} {op : Op} {ops : List Op}

theorem throughout_of_target?_eq_none (straight : op.target? = none) :
    Throughout meets none (op :: ops) machine ↔
      meets machine op ∧
        match machine.step .empty op with
        | .error _ => True
        | .ok (.leave _, _) => True
        | .ok (_, after) => Throughout meets none ops after := by
  cases op with
  | branch condition lhs rhs target => cases straight
  | _ => rfl

/-- It is enough to look at each machine that the operation may leave. -/
theorem throughout_cons (straight : op.target? = none) (met : meets machine op)
    (later : ∀ flow after, machine.step .empty op = .ok (flow, after) →
      Throughout meets none ops after) : Throughout meets none (op :: ops) machine := by
  refine (throughout_of_target?_eq_none straight).2 ⟨met, ?_⟩
  cases stepped : machine.step .empty op with
  | error fault => trivial
  | ok outcome =>
    obtain ⟨flow, after⟩ := outcome
    cases flow with
    | leave host => trivial
    | next => exact later _ after stepped
    | jump position => exact later _ after stepped

/-- It is enough to look at both ways that a branch may go. -/
theorem throughout_branch {condition : Condition} {lhs : Temp} {rhs : Operand} {target : Label}
    (met : meets machine (.branch condition lhs rhs target))
    (taken : Throughout meets (some target) ops machine)
    (passed : machine.taken condition lhs rhs = .ok false → Throughout meets none ops machine) :
    Throughout meets none (.branch condition lhs rhs target :: ops) machine := by
  refine ⟨met, ?_⟩
  cases decided : machine.taken condition lhs rhs with
  | error fault => trivial
  | ok decision =>
    cases decision with
    | true => exact taken
    | false => exact passed decided

theorem throughout_skip {label : Label} (elsewhere : op.place? ≠ some label) :
    Throughout meets (some label) (op :: ops) machine ↔
      Throughout meets (some label) ops machine :=
  Iff.of_eq (if_neg elsewhere)

theorem throughout_place {label : Label} :
    Throughout meets (some label) (.label label :: ops) machine ↔
      Throughout meets none ops machine :=
  Iff.of_eq (if_pos rfl)

/-- A list may be read in whatever way if all its operations meet the condition everywhere. -/
theorem throughout_of_forall (all : ∀ op ∈ ops, ∀ machine, meets machine op)
    (skipping : Option Label) (machine : Machine) : Throughout meets skipping ops machine := by
  induction ops generalizing skipping machine with
  | nil => trivial
  | cons op ops ih =>
    have met := all op List.mem_cons_self
    have rest := ih fun later member => all later (List.mem_cons_of_mem _ member)
    cases skipping with
    | some label =>
      unfold Throughout
      split
      · exact rest none machine
      · exact rest (some label) machine
    | none =>
      cases straight : op.target? with
      | none => exact throughout_cons straight (met machine) fun _ after _ => rest none after
      | some label =>
        cases op with
        | branch condition lhs rhs target =>
          exact throughout_branch (met machine) (rest _ machine) fun _ => rest none machine
        | _ => cases straight

end

/-! ## One part after another -/

/-- The condition holds throughout two parts if it does throughout the first, and then throughout
the second wherever the first is read to its end. -/
theorem throughout_append_of_leads {ops : List Op} (leads : LeadsForward ops) {more : List Op}
    (machine : Machine) :
    (Throughout meets none ops machine →
      (∀ after, forward none ops machine = (.ok .fallThrough, after) →
        Throughout meets none more after) →
      Throughout meets none (ops ++ more) machine) ∧
    ∀ label ∈ placed ops, Throughout meets (some label) ops machine →
      (∀ after, forward (some label) ops machine = (.ok .fallThrough, after) →
        Throughout meets none more after) →
      Throughout meets (some label) (ops ++ more) machine := by
  induction ops generalizing machine with
  | nil =>
    refine ⟨fun _ later => later machine rfl, fun label member => nomatch member⟩
  | cons op ops ih =>
    obtain ⟨first, rest⟩ := leads
    refine ⟨?_, ?_⟩
    · intro through later
      rw [List.cons_append]
      cases straight : op.target? with
      | none =>
        rw [throughout_of_target?_eq_none straight] at through ⊢
        rw [forward_of_target?_eq_none straight] at later
        refine ⟨through.1, ?_⟩
        have continues := through.2
        cases stepped : machine.step .empty op with
        | error fault => trivial
        | ok outcome =>
          rw [stepped] at continues later
          obtain ⟨flow, after⟩ := outcome
          cases flow with
          | leave host => trivial
          | next => exact (ih rest after).1 continues later
          | jump position => exact (ih rest after).1 continues later
      | some label =>
        cases op with
        | branch condition lhs rhs target =>
          cases straight
          obtain ⟨met, continues⟩ := through
          refine ⟨met, ?_⟩
          unfold forward at later
          cases decided : machine.taken condition lhs rhs with
          | error fault => trivial
          | ok decision =>
            rw [decided] at continues later
            cases decision with
            | true => exact (ih rest machine).2 label (first label rfl) continues later
            | false => exact (ih rest machine).1 continues later
        | _ => cases straight
    · intro label member through later
      rw [List.cons_append]
      by_cases here : op.place? = some label
      · obtain rfl := Op.eq_label_of_place? here
        rw [throughout_place] at through ⊢
        rw [forward_place] at later
        exact (ih rest machine).1 through later
      · rw [throughout_skip here] at through ⊢
        rw [forward_skip here] at later
        exact (ih rest machine).2 label (mem_placed_tail member here) through later

theorem throughout_append {ops more : List Op} (leads : LeadsForward ops) {machine : Machine}
    (through : Throughout meets none ops machine)
    (later : ∀ after, forward none ops machine = (.ok .fallThrough, after) →
      Throughout meets none more after) : Throughout meets none (ops ++ more) machine :=
  (throughout_append_of_leads leads machine).1 through later

/-- Skipping passes over a list that does not place the label. -/
theorem throughout_skip_append {label : Label} {ops more : List Op} {machine : Machine}
    (elsewhere : label ∉ placed ops) (through : Throughout meets (some label) more machine) :
    Throughout meets (some label) (ops ++ more) machine := by
  induction ops with
  | nil => exact through
  | cons op ops ih =>
    obtain ⟨first, rest⟩ := not_mem_placed_cons elsewhere
    exact (throughout_skip first).2 (ih rest)

/-! ## Runs -/

/-- The condition holds at every point of the runs from here on. -/
def MeetsFrom (meets : Machine → Op → Prop) (ops : Array Op) (labels : Labels) (start : Point) :
    Prop :=
  ∀ count point op, Executes ops labels count start point → ops[point.position]? = some op →
    meets point.machine op

/-- It is met here, and from wherever the run goes. -/
theorem MeetsFrom.cons {ops : Array Op} {labels : Labels} {start : Point}
    (here : ∀ op, ops[start.position]? = some op → meets start.machine op)
    (later : ∀ second, Goes ops labels start second → MeetsFrom meets ops labels second) :
    MeetsFrom meets ops labels start := by
  intro count point op executed found
  cases executed with
  | none => exact here op found
  | more goes rest => exact later _ goes _ point op rest found

/-- An operation that does not branch goes on at the next one. -/
theorem Goes.of_target?_eq_none {ops : Array Op} {labels : Labels} {position : Nat}
    {machine : Machine} {op : Op} {second : Point} (here : ops[position]? = some op)
    (straight : op.target? = none) (goes : Goes ops labels ⟨position, machine⟩ second) :
    ∃ after, machine.step .empty op = .ok (.next, after) ∧ second = ⟨position + 1, after⟩ := by
  cases goes with
  | next found stepped =>
    cases here.symm.trans found
    rw [step_of_target?_eq_none straight] at stepped
    exact ⟨_, stepped, rfl⟩
  | jump found stepped =>
    cases here.symm.trans found
    exact absurd rfl (flow_ne_jump straight stepped _)

/-- A branch goes on at the next operation, or just after the place of its label. -/
theorem Goes.of_branch {ops : Array Op} {labels : Labels} {position : Nat} {machine : Machine}
    {condition : Condition} {lhs : Temp} {rhs : Operand} {target : Label} {second : Point}
    (here : ops[position]? = some (.branch condition lhs rhs target))
    (goes : Goes ops labels ⟨position, machine⟩ second) :
    (machine.taken condition lhs rhs = .ok false ∧ second = ⟨position + 1, machine⟩) ∨
    (machine.taken condition lhs rhs = .ok true ∧
      ∃ place, labels.position target = .ok place ∧ second = ⟨place, machine⟩) := by
  have decided : ∀ {flow after}, machine.step labels (.branch condition lhs rhs target) =
        .ok (flow, after) →
      (machine.taken condition lhs rhs = .ok false ∧ flow = .next ∧ after = machine) ∨
      (machine.taken condition lhs rhs = .ok true ∧
        ∃ place, labels.position target = .ok place ∧ flow = .jump place ∧ after = machine) := by
    intro flow after stepped
    rw [step_branch] at stepped
    split at stepped
    · cases stepped
    · next taken =>
      cases placed : labels.position target with
      | error fault =>
        rw [placed] at stepped
        cases stepped
      | ok place =>
        rw [placed] at stepped
        cases stepped
        exact Or.inr ⟨taken, place, rfl, rfl, rfl⟩
    · next passed =>
      cases stepped
      exact Or.inl ⟨passed, rfl, rfl⟩
  cases goes with
  | next found stepped =>
    cases here.symm.trans found
    rcases decided stepped with ⟨passed, -, rfl⟩ | ⟨-, _, -, impossible, -⟩
    · exact Or.inl ⟨passed, rfl⟩
    · cases impossible
  | jump found stepped =>
    cases here.symm.trans found
    rcases decided stepped with ⟨-, impossible, -⟩ | ⟨taken, place, placed, flow, rfl⟩
    · cases impossible
    · cases flow
      exact Or.inr ⟨taken, _, placed, rfl⟩

/-- From any position on, running executes what reading the rest of the list does; and so does
running from the place of a label that is still ahead. -/
theorem meetsFrom_of_throughout {ops : Array Op} {labels : Labels}
    (resolves : Resolves labels ops.toList) {rest : List Op} (leads : LeadsForward rest)
    {before : List Op} (split : ops.toList = before ++ rest) (machine : Machine) :
    (Throughout meets none rest machine →
      MeetsFrom meets ops labels ⟨before.length, machine⟩) ∧
    ∀ label ∈ placed rest, ∀ position, labels.position label = .ok position →
      Throughout meets (some label) rest machine →
        MeetsFrom meets ops labels ⟨position, machine⟩ := by
  induction rest generalizing before machine with
  | nil =>
    refine ⟨fun _ => ?_, fun label member => nomatch member⟩
    have ended : ops[before.length]? = none := by
      rw [← Array.getElem?_toList, split, List.append_nil]
      exact List.getElem?_eq_none (Nat.le_refl _)
    refine .cons (fun op found => nomatch ended.symm.trans found) fun second goes => ?_
    cases goes with
    | next here _ => cases ended.symm.trans here
    | jump here _ => cases ended.symm.trans here
  | cons op rest ih =>
    obtain ⟨first, leads⟩ := leads
    have further : ops.toList = (before ++ [op]) ++ rest := by rw [split, List.append_assoc]; rfl
    have length : (before ++ [op]).length = before.length + 1 := List.length_append
    have here : ops[before.length]? = some op := by
      rw [← Array.getElem?_toList, split, List.getElem?_append_right (Nat.le_refl _),
        Nat.sub_self, List.getElem?_cons_zero]
    have next : ∀ after, Throughout meets none rest after →
        MeetsFrom meets ops labels ⟨before.length + 1, after⟩ := by
      intro after through
      rw [← length]
      exact (ih leads further after).1 through
    refine ⟨fun through => ?_, ?_⟩
    · cases straight : op.target? with
      | none =>
        obtain ⟨met, continues⟩ := (throughout_of_target?_eq_none straight).1 through
        refine .cons (fun other found => ?_) fun second goes => ?_
        · cases here.symm.trans found
          exact met
        · obtain ⟨after, stepped, rfl⟩ := goes.of_target?_eq_none here straight
          rw [stepped] at continues
          exact next after continues
      | some label =>
        cases op with
        | branch condition lhs rhs target =>
          cases straight
          obtain ⟨met, continues⟩ := through
          refine .cons (fun other found => ?_) fun second goes => ?_
          · cases here.symm.trans found
            exact met
          · rcases goes.of_branch here with ⟨passed, rfl⟩ | ⟨taken, place, found, rfl⟩
            · rw [passed] at continues
              exact next machine continues
            · rw [taken] at continues
              exact (ih leads further machine).2 label (first label rfl) place found continues
        | _ => cases straight
    · intro label member position found through
      by_cases places : op.place? = some label
      · obtain rfl := Op.eq_label_of_place? places
        have same := (resolves before label rest split).symm.trans found
        cases same
        exact next machine (throughout_place.1 through)
      · have ahead := mem_placed_tail member places
        exact (ih leads further machine).2 label ahead position found
          ((throughout_skip places).1 through)

/-- A condition that holds throughout the reading of a list holds at every point of its runs. -/
theorem Throughout.meetsFrom {ops : Array Op}
    (distinct : (placed ops.toList).Nodup) (leads : LeadsForward ops.toList) {machine : Machine}
    (through : Throughout meets none ops.toList machine) :
    ∃ labels, Labels.ofOps ops = .ok labels ∧ MeetsFrom meets ops labels ⟨0, machine⟩ := by
  obtain ⟨labels, accepted, resolves⟩ := ofOps_eq_ok distinct
  have whole : ops.toList = [] ++ ops.toList := rfl
  exact ⟨labels, accepted, (meetsFrom_of_throughout resolves leads whole machine).1 through⟩

end TransferCache.Code
