import TransferCache.Code.Machine

/-!
# Lists that only branch forward

A machine finds the places of all labels before it runs a list and then moves a position about in
it. If each label is placed once and every branch leads forward, that is the same as reading the
list once from left to right and skipping ahead at a taken branch (`forward`), which needs neither
positions nor a bound on the number of steps, and which can be cut in two wherever no branch leads
across (`forward_append`).

* `run_eq_forward`: the two agree on every list within the bound.
* `run_eq_forward_of_ended`: so they do on a longer list unless the run is cut off.
-/

namespace TransferCache.Code

/-! ## Places and branches -/

/-- The label that an operation places. -/
def Op.place? : Op → Option Label
  | .label place => some place
  | _ => none

/-- The label that an operation may branch to. -/
def Op.target? : Op → Option Label
  | .branch _ _ _ target => some target
  | _ => none

/-- The labels placed in a list, in order. -/
def placed (ops : List Op) : List Label := ops.filterMap Op.place?

/-- Every branch names a label that is placed after it. -/
def LeadsForward : List Op → Prop
  | [] => True
  | op :: ops => (∀ label, op.target? = some label → label ∈ placed ops) ∧ LeadsForward ops

theorem Op.eq_label_of_place? {op : Op} {label : Label} (places : op.place? = some label) :
    op = .label label := by
  cases op with
  | label place =>
    cases places
    rfl
  | _ => cases places

theorem mem_placed_tail {op : Op} {ops : List Op} {label : Label}
    (member : label ∈ placed (op :: ops)) (elsewhere : op.place? ≠ some label) :
    label ∈ placed ops := by
  obtain ⟨other, inside, places⟩ := List.mem_filterMap.1 member
  rcases List.mem_cons.1 inside with rfl | later
  · exact absurd places elsewhere
  · exact List.mem_filterMap.2 ⟨other, later, places⟩

theorem not_mem_placed_cons {op : Op} {ops : List Op} {label : Label}
    (elsewhere : label ∉ placed (op :: ops)) : op.place? ≠ some label ∧ label ∉ placed ops := by
  refine ⟨fun places => elsewhere ?_, fun member => elsewhere ?_⟩
  · exact List.mem_filterMap.2 ⟨op, List.mem_cons_self, places⟩
  · obtain ⟨later, inside, places⟩ := List.mem_filterMap.1 member
    exact List.mem_filterMap.2 ⟨later, List.mem_cons_of_mem _ inside, places⟩

theorem placed_append (ops more : List Op) : placed (ops ++ more) = placed ops ++ placed more :=
  List.filterMap_append

theorem LeadsForward.append {ops more : List Op} (leads : LeadsForward ops)
    (leadsMore : LeadsForward more) : LeadsForward (ops ++ more) := by
  induction ops with
  | nil => exact leadsMore
  | cons op ops ih =>
    obtain ⟨first, rest⟩ := leads
    refine ⟨fun label names => ?_, ih rest⟩
    change label ∈ placed (ops ++ more)
    rw [placed_append]
    exact List.mem_append_left _ (first label names)

/-! ## Reading a list once -/

/-- Whether a branch would be taken. -/
def Machine.taken (machine : Machine) (condition : Condition) (lhs : Temp) (rhs : Operand) :
    Except Fault Bool := do
  let left ← machine.read lhs
  let right ← machine.operand rhs
  return condition.holds left right

/-- Runs a list from left to right. A taken branch skips to the place of its label; the first
argument is the label that is being skipped to, if there is one. -/
def forward : Option Label → List Op → Machine → Except Fault Exit × Machine
  | none, [], machine => (.ok .fallThrough, machine)
  | some label, [], machine => (.error (.labelUndefined label), machine)
  | some label, op :: ops, machine =>
    if op.place? = some label then forward none ops machine
    else forward (some label) ops machine
  | none, .branch condition lhs rhs target :: ops, machine =>
    match machine.taken condition lhs rhs with
    | .error fault => (.error fault, machine)
    | .ok true => forward (some target) ops machine
    | .ok false => forward none ops machine
  | none, op :: ops, machine =>
    match machine.step .empty op with
    | .error fault => (.error fault, machine)
    | .ok (.leave host, after) => (.ok (.leave host), after)
    | .ok (_, after) => forward none ops after

theorem forward_of_target?_eq_none {op : Op} (straight : op.target? = none) (ops : List Op)
    (machine : Machine) :
    forward none (op :: ops) machine =
      match machine.step .empty op with
      | .error fault => (.error fault, machine)
      | .ok (.leave host, after) => (.ok (.leave host), after)
      | .ok (_, after) => forward none ops after := by
  cases op with
  | branch condition lhs rhs target => cases straight
  | _ => rfl

/-- Skipping passes over every operation that does not place the label. -/
theorem forward_skip {op : Op} {label : Label} (elsewhere : op.place? ≠ some label)
    (ops : List Op) (machine : Machine) :
    forward (some label) (op :: ops) machine = forward (some label) ops machine :=
  if_neg elsewhere

/-- Skipping ends at the place of the label. -/
theorem forward_place (label : Label) (ops : List Op) (machine : Machine) :
    forward (some label) (.label label :: ops) machine = forward none ops machine :=
  if_pos rfl

/-- What goes on after a list has been read: the next list, if the first was not left and did not
fault. -/
def followedBy (reached : Except Fault Exit × Machine) (ops : List Op) :
    Except Fault Exit × Machine :=
  match reached with
  | (.ok .fallThrough, machine) => forward none ops machine
  | (.ok (.leave host), machine) => (.ok (.leave host), machine)
  | (.error fault, machine) => (.error fault, machine)

/-- A list whose branches stay inside it is read first, whatever follows; and so is the rest of it
when a label inside it is being skipped to. -/
theorem forward_append_of_leads {ops : List Op} (leads : LeadsForward ops) (more : List Op)
    (machine : Machine) :
    forward none (ops ++ more) machine = followedBy (forward none ops machine) more ∧
      ∀ label ∈ placed ops,
        forward (some label) (ops ++ more) machine =
          followedBy (forward (some label) ops machine) more := by
  induction ops generalizing machine with
  | nil => exact ⟨rfl, fun label member => nomatch member⟩
  | cons op ops ih =>
    obtain ⟨first, rest⟩ := leads
    refine ⟨?_, ?_⟩
    · cases straight : op.target? with
      | none =>
        rw [List.cons_append, forward_of_target?_eq_none straight,
          forward_of_target?_eq_none straight]
        cases machine.step .empty op with
        | error fault => rfl
        | ok outcome =>
          obtain ⟨flow, after⟩ := outcome
          cases flow with
          | leave host => rfl
          | next => exact (ih rest after).1
          | jump position => exact (ih rest after).1
      | some label =>
        cases op with
        | branch condition lhs rhs target =>
          cases straight
          rw [List.cons_append]
          unfold forward
          cases machine.taken condition lhs rhs with
          | error fault => rfl
          | ok decision =>
            cases decision with
            | true => exact (ih rest machine).2 label (first label rfl)
            | false => exact (ih rest machine).1
        | _ => cases straight
    · intro label member
      rw [List.cons_append]
      by_cases here : op.place? = some label
      · rw [forward, forward, if_pos here, if_pos here]
        exact (ih rest machine).1
      · rw [forward_skip here, forward_skip here]
        exact (ih rest machine).2 label (mem_placed_tail member here)

theorem forward_append {ops : List Op} (leads : LeadsForward ops) (more : List Op)
    (machine : Machine) :
    forward none (ops ++ more) machine = followedBy (forward none ops machine) more :=
  (forward_append_of_leads leads more machine).1

/-! ## The places of labels -/

/-- A table gives for every label of a list the position just after its place. -/
def Resolves (labels : Labels) (ops : List Op) : Prop :=
  ∀ before label after, ops = before ++ .label label :: after →
    labels.position label = .ok (before.length + 1)

theorem Label.number_injective {label other : Label}
    (same : label.number.toNat = other.number.toNat) : label = other := by
  cases label
  cases other
  exact congrArg Label.mk (UInt16.toNat_inj.1 same)

theorem collect_of_place?_eq_none {op : Op} (nowhere : op.place? = none) (ops : List Op)
    (position : Nat) (labels : Labels) :
    Labels.collect (op :: ops) position labels = Labels.collect ops (position + 1) labels := by
  cases op with
  | label place => cases nowhere
  | _ => rfl

/-- Collecting labels that are placed once, and that the table does not have yet, succeeds. It adds
their positions and changes nothing else. -/
theorem collect_eq_ok {ops : List Op} (distinct : (placed ops).Nodup) (position : Nat)
    {labels : Labels} (new : ∀ label ∈ placed ops, labels.find? label.number.toNat = none) :
    ∃ final, Labels.collect ops position labels = .ok final ∧
      (∀ label, label ∉ placed ops →
        final.find? label.number.toNat = labels.find? label.number.toNat) ∧
      ∀ before label after, ops = before ++ .label label :: after →
        final.find? label.number.toNat = some (position + before.length + 1) := by
  induction ops generalizing position labels with
  | nil => exact ⟨labels, rfl, fun _ _ => rfl, fun before label after split => by simp at split⟩
  | cons op ops ih =>
    cases nowhere : op.place? with
    | none =>
      have same : placed (op :: ops) = placed ops := List.filterMap_cons_none nowhere
      rw [same] at distinct new
      obtain ⟨final, collected, kept, found⟩ := ih distinct (position + 1) new
      refine ⟨final, (collect_of_place?_eq_none nowhere _ _ _).trans collected, ?_, ?_⟩
      · rwa [same]
      · intro before label after split
        cases before with
        | nil =>
          cases split
          cases nowhere
        | cons first before =>
          cases split
          rw [found before label after rfl, List.length_cons]
          congr 1
          omega
    | some place =>
      obtain rfl := Op.eq_label_of_place? nowhere
      have grown : placed (.label place :: ops) = place :: placed ops := rfl
      rw [grown] at distinct new
      obtain ⟨once, distinct⟩ := List.nodup_cons.1 distinct
      have unset := new place List.mem_cons_self
      have newLater : ∀ label ∈ placed ops,
          (labels.set place.number.toNat (position + 1)).find? label.number.toNat = none := by
        intro label member
        have apart : place.number.toNat ≠ label.number.toNat := by
          intro same
          exact once (Label.number_injective same ▸ member)
        rw [Numbered.find?_set, if_neg apart]
        exact new label (List.mem_cons_of_mem _ member)
      obtain ⟨final, collected, kept, found⟩ := ih distinct (position + 1) newLater
      have setHere : final.find? place.number.toNat = some (position + 1) := by
        rw [kept place once, Numbered.find?_set, if_pos rfl]
      refine ⟨final, ?_, ?_, ?_⟩
      · rw [Labels.collect, unset]
        exact collected
      · intro label absent
        rw [grown, List.mem_cons, not_or] at absent
        have apart : place.number.toNat ≠ label.number.toNat := by
          intro same
          exact absent.1 (Label.number_injective same).symm
        rw [kept label absent.2, Numbered.find?_set, if_neg apart]
      · intro before label after split
        cases before with
        | nil =>
          cases split
          exact setHere
        | cons first before =>
          cases split
          rw [found before label after rfl, List.length_cons]
          congr 1
          omega

/-- A list that places each of its labels once is accepted. -/
theorem ofOps_eq_ok {ops : Array Op} (distinct : (placed ops.toList).Nodup) :
    ∃ labels, Labels.ofOps ops = .ok labels ∧ Resolves labels ops.toList := by
  obtain ⟨labels, collected, -, found⟩ :=
    collect_eq_ok distinct 0 fun label _ => Numbered.find?_empty label.number.toNat
  refine ⟨labels, collected, ?_⟩
  intro before label after split
  unfold Labels.position
  rw [found before label after split, Nat.zero_add]

/-! ## Running and reading agree -/

theorem step_branch (labels : Labels) (machine : Machine) (condition : Condition) (lhs : Temp)
    (rhs : Operand) (target : Label) :
    machine.step labels (.branch condition lhs rhs target) =
      match machine.taken condition lhs rhs with
      | .error fault => .error fault
      | .ok true => (labels.position target).map fun position => (.jump position, machine)
      | .ok false => .ok (.next, machine) := by
  simp only [Machine.step, Machine.taken, bind, Except.bind, pure, Except.pure]
  cases machine.read lhs with
  | error fault => rfl
  | ok left =>
    cases machine.operand rhs with
    | error fault => rfl
    | ok right =>
      dsimp only
      cases condition.holds left right with
      | false => rfl
      | true => cases labels.position target <;> rfl

/-- An operation that does not branch does not look at the table of labels. -/
theorem step_of_target?_eq_none {op : Op} (straight : op.target? = none) (labels : Labels)
    (machine : Machine) : machine.step labels op = machine.step .empty op := by
  cases op with
  | branch condition lhs rhs target => cases straight
  | _ => rfl

theorem exists_split_of_mem_placed {ops : List Op} {label : Label} (member : label ∈ placed ops) :
    ∃ before after, ops = before ++ .label label :: after := by
  obtain ⟨op, inside, places⟩ := List.mem_filterMap.1 member
  obtain ⟨before, after, split⟩ := List.append_of_mem inside
  exact ⟨before, after, Op.eq_label_of_place? places ▸ split⟩

/-- No operation but a branch jumps. -/
theorem flow_ne_jump {op : Op} (straight : op.target? = none) {labels : Labels}
    {machine after : Machine} {flow : Flow} (stepped : machine.step labels op = .ok (flow, after))
    (position : Nat) : flow ≠ .jump position := by
  rintro rfl
  cases op with
  | branch condition lhs rhs target => cases straight
  | _ =>
    simp only [Machine.step, bind, Except.bind, pure, Except.pure] at stepped
    repeat' split at stepped
    all_goals cases stepped

/-- From any position on, running is reading what is left of the list; and so is running from the
place of a label that is still ahead. -/
theorem runFrom_eq_forward {ops : Array Op} {labels : Labels}
    (resolves : Resolves labels ops.toList) {rest : List Op} (leads : LeadsForward rest)
    {before : List Op} (split : ops.toList = before ++ rest) {budget : Nat}
    (enough : rest.length ≤ budget) (machine : Machine) :
    Machine.runFrom ops labels budget before.length machine = forward none rest machine ∧
      ∀ label ∈ placed rest, ∀ position, labels.position label = .ok position →
        Machine.runFrom ops labels budget position machine =
          forward (some label) rest machine := by
  induction rest generalizing before budget machine with
  | nil =>
    refine ⟨?_, fun label member => nomatch member⟩
    have ended : ops[before.length]? = none := by
      rw [← Array.getElem?_toList, split, List.append_nil]
      exact List.getElem?_eq_none (Nat.le_refl _)
    unfold Machine.runFrom
    rw [ended]
    rfl
  | cons op rest ih =>
    obtain ⟨first, leads⟩ := leads
    have further : ops.toList = (before ++ [op]) ++ rest := by rw [split, List.append_assoc]; rfl
    have length : (before ++ [op]).length = before.length + 1 := List.length_append
    refine ⟨?_, ?_⟩
    · have here : ops[before.length]? = some op := by
        rw [← Array.getElem?_toList, split, List.getElem?_append_right (Nat.le_refl _),
          Nat.sub_self, List.getElem?_cons_zero]
      obtain ⟨budget, rfl⟩ : ∃ less, budget = less + 1 :=
        Nat.exists_eq_add_of_le' (Nat.le_trans (Nat.succ_le_succ (Nat.zero_le _)) enough)
      have enoughLater : rest.length ≤ budget := Nat.le_of_succ_le_succ enough
      unfold Machine.runFrom
      rw [here]
      cases straight : op.target? with
      | none =>
        rw [forward_of_target?_eq_none straight]
        simp only [step_of_target?_eq_none straight labels]
        cases stepped : machine.step .empty op with
        | error fault => rfl
        | ok outcome =>
          obtain ⟨flow, after⟩ := outcome
          cases flow with
          | leave host => rfl
          | next =>
            rw [← length]
            exact (ih leads further enoughLater after).1
          | jump position => exact absurd rfl (flow_ne_jump straight stepped position)
      | some label =>
        cases op with
        | branch condition lhs rhs target =>
          cases straight
          simp only [step_branch]
          unfold forward
          cases machine.taken condition lhs rhs with
          | error fault => rfl
          | ok decision =>
            cases decision with
            | false =>
              rw [← length]
              exact (ih leads further enoughLater machine).1
            | true =>
              have ahead := first label rfl
              obtain ⟨early, late, place⟩ := exists_split_of_mem_placed ahead
              have found : labels.position label = .ok _ := resolves _ label late
                (further.trans (congrArg _ place |>.trans (List.append_assoc _ _ _).symm))
              simp only [found, Except.map]
              exact (ih leads further enoughLater machine).2 label ahead _ found
        | _ => cases straight
    · intro label member position found
      have enoughLater : rest.length ≤ budget := Nat.le_of_succ_le enough
      by_cases here : op.place? = some label
      · obtain rfl := Op.eq_label_of_place? here
        rw [forward_place]
        have same := (resolves before label rest split).symm.trans found
        cases same
        rw [← length]
        exact (ih leads further enoughLater machine).1
      · rw [forward_skip here]
        have ahead := mem_placed_tail member here
        exact (ih leads further enoughLater machine).2 label ahead position found

/-- A list that places each label once, only branches forward and is not too long is run by reading
it once. -/
theorem run_eq_forward {ops : Array Op} (distinct : (placed ops.toList).Nodup)
    (leads : LeadsForward ops.toList) (short : ops.size ≤ stepBound) (machine : Machine) :
    machine.run ops = forward none ops.toList machine := by
  obtain ⟨labels, accepted, resolves⟩ := ofOps_eq_ok distinct
  unfold Machine.run
  rw [accepted]
  have enough : ops.toList.length ≤ stepBound := by rwa [Array.length_toList]
  have whole : ops.toList = [] ++ ops.toList := rfl
  exact (runFrom_eq_forward resolves leads whole enough machine).1

/-! ## Runs that are not cut off -/

/-- A run that is over within its budget is the same with any larger one. -/
theorem runFrom_add {ops : Array Op} {labels : Labels} {budget position : Nat} {machine : Machine}
    (ended : (Machine.runFrom ops labels budget position machine).1 ≠ .error .noExit) (more : Nat) :
    Machine.runFrom ops labels (budget + more) position machine =
      Machine.runFrom ops labels budget position machine := by
  induction budget generalizing position machine with
  | zero =>
    unfold Machine.runFrom at ended ⊢
    cases found : ops[position]? with
    | none => rfl
    | some op =>
      rw [found] at ended
      exact absurd rfl ended
  | succ budget ih =>
    rw [Nat.succ_add]
    unfold Machine.runFrom at ended ⊢
    cases found : ops[position]? with
    | none => rfl
    | some op =>
      rw [found] at ended
      dsimp only at ended ⊢
      cases stepped : machine.step labels op with
      | error fault => rfl
      | ok outcome =>
        rw [stepped] at ended
        obtain ⟨flow, after⟩ := outcome
        cases flow with
        | next => exact ih ended
        | jump target => exact ih ended
        | leave host => rfl

/-- However long a list is that places each label once and only branches forward, running it is
reading it once, unless the run is cut off. -/
theorem run_eq_forward_of_ended {ops : Array Op} (distinct : (placed ops.toList).Nodup)
    (leads : LeadsForward ops.toList) {machine : Machine}
    (ended : (machine.run ops).1 ≠ .error .noExit) :
    machine.run ops = forward none ops.toList machine := by
  obtain ⟨labels, accepted, resolves⟩ := ofOps_eq_ok distinct
  have bounded : machine.run ops = Machine.runFrom ops labels stepBound 0 machine := by
    unfold Machine.run
    rw [accepted]
  rw [bounded] at ended ⊢
  rw [← runFrom_add ended ops.toList.length]
  have enough : ops.toList.length ≤ stepBound + ops.toList.length := Nat.le_add_left _ _
  have whole : ops.toList = [] ++ ops.toList := rfl
  exact (runFrom_eq_forward resolves leads whole enough machine).1

end TransferCache.Code
