import TransferCache.Proofs.Code.Visits

/-!
# One operation list after another

Two lists that share no label, and whose branches stay inside their own list, may be joined and run
as one. Labels are resolved over the whole list, so that those of the second list lie further back
than if it were run alone, and both lists spend the same budget; neither is to be noticed, as long
as the budget is enough for both. Branches may lead backwards, and the lists may loop.

* `runFrom_append_left`: inside the first list a run goes as if nothing followed.
* `runFrom_append_right`: inside the second list it goes as if nothing preceded.
* `run_joined`: running both lists joined is running one after the other.
-/

namespace TransferCache.Code

/-- Every branch of a list names a label that the list places, before it or after it. -/
def BranchesWithin (ops : List Op) : Prop :=
  ∀ op ∈ ops, ∀ label, op.target? = some label → label ∈ placed ops

instance (ops : List Op) : Decidable (BranchesWithin ops) :=
  decidable_of_iff (ops.all fun op => op.target?.all fun label => label ∈ placed ops)
    (by simp [BranchesWithin, Option.all_eq_true])

/-- The number of operations that a run executes. -/
def Machine.executed (machine : Machine) (ops : Array Op) : Nat := (machine.visits ops).length

/-- What goes on after the end of a list, unless the list was left or met a fault. -/
def thenGoes (reached : Except Fault Exit × Machine)
    (further : Machine → Except Fault Exit × Machine) : Except Fault Exit × Machine :=
  match reached with
  | (.ok .fallThrough, middle) => further middle
  | ended => ended

variable {front back : Array Op} {labels frontLabels backLabels : Labels} {position : Nat}
  {machine : Machine}

/-! ## The places of labels in joined lists -/

/-- The first list keeps the places of its labels. -/
theorem Resolves.of_append_left (resolves : Resolves labels (front ++ back).toList) :
    Resolves labels front.toList := by
  intro before label after split
  refine resolves before label (after ++ back.toList) ?_
  rw [Array.toList_append, split, List.append_assoc, List.cons_append]

/-- The labels of the second list lie behind the whole first list. -/
theorem position_of_append_right (resolves : Resolves labels (front ++ back).toList)
    (alone : Resolves backLabels back.toList) {label : Label}
    (member : label ∈ placed back.toList) :
    labels.position label = (backLabels.position label).map (front.size + ·) := by
  obtain ⟨before, after, split⟩ := exists_split_of_mem_placed member
  have joined : (front ++ back).toList = (front.toList ++ before) ++ .label label :: after := by
    rw [Array.toList_append, split, List.append_assoc]
  rw [resolves _ label after joined, alone before label after split, List.length_append]
  exact congrArg Except.ok (Nat.add_assoc _ _ _)

/-- A label of a list is resolved to a place inside it, and in only one way. -/
theorem position_of_mem_placed (resolves : Resolves labels front.toList)
    (alone : Resolves frontLabels front.toList) {label : Label}
    (member : label ∈ placed front.toList) :
    labels.position label = frontLabels.position label ∧
      ∀ place, frontLabels.position label = .ok place → place ≤ front.size := by
  obtain ⟨before, after, split⟩ := exists_split_of_mem_placed member
  have found := alone before label after split
  refine ⟨(resolves before label after split).trans found.symm, fun place same => ?_⟩
  cases found.symm.trans same
  rw [← Array.length_toList, split, List.length_append, List.length_cons]
  omega

/-! ## Inside the first list -/

section

variable (resolves : Resolves labels front.toList) (alone : Resolves frontLabels front.toList)
  (within : BranchesWithin front.toList)

include resolves alone within

theorem step_of_mem_left {op : Op} (member : op ∈ front.toList) (machine : Machine) :
    machine.step labels op = machine.step frontLabels op := by
  cases straight : op.target? with
  | none => rw [step_of_target?_eq_none straight, step_of_target?_eq_none straight frontLabels]
  | some label =>
    cases op with
    | branch condition lhs rhs target =>
      cases straight
      have named := within _ member _ rfl
      rw [step_branch, step_branch, (position_of_mem_placed resolves alone named).1]
    | _ => cases straight

theorem le_size_of_jump {op : Op} (member : op ∈ front.toList) {machine after : Machine}
    {target : Nat} (jumped : machine.step frontLabels op = .ok (.jump target, after)) :
    target ≤ front.size := by
  cases straight : op.target? with
  | none => exact absurd rfl (flow_ne_jump straight jumped target)
  | some label =>
    cases op with
    | branch condition lhs rhs label =>
      have named := within _ member label rfl
      have inside := (position_of_mem_placed resolves alone named).2
      rw [step_branch] at jumped
      split at jumped
      · cases jumped
      · cases found : frontLabels.position label with
        | error fault =>
          rw [found] at jumped
          cases jumped
        | ok place =>
          rw [found] at jumped
          cases jumped
          exact inside _ found
      · cases jumped
    | _ => cases straight

/-- Inside the first list a run goes as if nothing followed. From its end on, there is as much
budget as it has left over. -/
theorem runFrom_append_left (back : Array Op) {budget : Nat} (inside : position ≤ front.size) :
    Machine.runFrom (front ++ back) labels budget position machine =
      thenGoes (Machine.runFrom front frontLabels budget position machine)
        (Machine.runFrom (front ++ back) labels
          (budget - (Machine.visitsFrom front frontLabels budget position machine).length)
          front.size) := by
  -- both runs spend the budget alike, so it is general along with the place they are at
  induction budget generalizing position machine with
  | zero =>
    rcases Nat.eq_or_lt_of_le inside with rfl | below
    · rw [runFrom_of_beyond Array.getElem?_size, visitsFrom_of_beyond Array.getElem?_size]
      rfl
    · unfold Machine.runFrom Machine.visitsFrom
      rw [Array.getElem?_append_left below, Array.getElem?_eq_getElem below]
      rfl
  | succ budget ih =>
    rcases Nat.eq_or_lt_of_le inside with rfl | below
    · rw [runFrom_of_beyond Array.getElem?_size, visitsFrom_of_beyond Array.getElem?_size]
      rfl
    · have member : front[position] ∈ front.toList := Array.getElem_mem_toList below
      have here : front[position]? = some front[position] := Array.getElem?_eq_getElem below
      have joined : (front ++ back)[position]? = some front[position] :=
        (Array.getElem?_append_left below).trans here
      rw [runFrom_succ here, runFrom_succ joined, visitsFrom_succ here,
        step_of_mem_left resolves alone within member]
      cases stepped : machine.step frontLabels front[position] with
      | error fault => rfl
      | ok outcome =>
        obtain ⟨flow, after⟩ := outcome
        cases flow with
        | leave host => rfl
        | next =>
          dsimp only
          rw [ih below, List.length_cons, Nat.add_sub_add_right]
        | jump target =>
          dsimp only
          rw [ih (le_size_of_jump resolves alone within member stepped), List.length_cons,
            Nat.add_sub_add_right]

end

/-! ## Inside the second list -/

/-- Jumps that lead further back. -/
def Flow.shift (offset : Nat) : Flow → Flow
  | .jump position => .jump (offset + position)
  | .next => .next
  | .leave host => .leave host

section

variable (resolves : Resolves labels (front ++ back).toList)
  (alone : Resolves backLabels back.toList) (within : BranchesWithin back.toList)

include resolves alone within

theorem step_of_mem_right {op : Op} (member : op ∈ back.toList) (machine : Machine) :
    machine.step labels op =
      (machine.step backLabels op).map fun outcome => (outcome.1.shift front.size, outcome.2) := by
  cases straight : op.target? with
  | none =>
    rw [step_of_target?_eq_none straight, step_of_target?_eq_none straight backLabels]
    cases stepped : machine.step .empty op with
    | error fault => rfl
    | ok outcome =>
      obtain ⟨flow, after⟩ := outcome
      cases flow with
      | jump position => exact absurd rfl (flow_ne_jump straight stepped position)
      | _ => rfl
  | some label =>
    cases op with
    | branch condition lhs rhs target =>
      have named := within _ member _ rfl
      rw [step_branch, step_branch, position_of_append_right resolves alone named]
      split
      · rfl
      · cases backLabels.position target <;> rfl
      · rfl
    | _ => cases straight

/-- Inside the second list a run goes as if nothing preceded. -/
theorem runFrom_append_right (budget position : Nat) (machine : Machine) :
    Machine.runFrom (front ++ back) labels budget (front.size + position) machine =
      Machine.runFrom back backLabels budget position machine := by
  have shifted : ∀ position, (front ++ back)[front.size + position]? = back[position]? := by
    intro position
    rw [Array.getElem?_append_right (Nat.le_add_right _ _), Nat.add_sub_cancel_left]
  induction budget generalizing position machine with
  | zero =>
    unfold Machine.runFrom
    rw [shifted]
  | succ budget ih =>
    cases here : back[position]? with
    | none => rw [runFrom_of_beyond here, runFrom_of_beyond ((shifted position).trans here)]
    | some op =>
      have member : op ∈ back.toList := by
        rw [← Array.getElem?_toList] at here
        exact List.mem_of_getElem? here
      rw [runFrom_succ here, runFrom_succ ((shifted position).trans here),
        step_of_mem_right resolves alone within member]
      cases machine.step backLabels op with
      | error fault => rfl
      | ok outcome =>
        obtain ⟨flow, after⟩ := outcome
        cases flow with
        | leave host => rfl
        | next => exact ih (position + 1) after
        | jump target => exact ih target after

end

/-! ## Both lists -/

/-- Running two lists joined is running the first one, and then the second one if the first falls
off its end. -/
theorem run_joined (distinct : (placed (front ++ back).toList).Nodup)
    (first : BranchesWithin front.toList) (second : BranchesWithin back.toList)
    (machine : Machine)
    (enough : ∀ middle, machine.run front = (.ok .fallThrough, middle) →
      machine.executed front + middle.executed back ≤ stepBound) :
    machine.run (front ++ back) = thenGoes (machine.run front) fun middle => middle.run back := by
  have apart := distinct
  rw [Array.toList_append, placed_append] at apart
  obtain ⟨labels, accepted, resolves⟩ := ofOps_eq_ok distinct
  obtain ⟨frontLabels, frontAccepted, frontResolves⟩ :=
    ofOps_eq_ok (List.Nodup.of_append_left apart)
  obtain ⟨backLabels, backAccepted, backResolves⟩ :=
    ofOps_eq_ok (List.Nodup.of_append_right apart)
  rw [Machine.run_eq_runFrom accepted, Machine.run_eq_runFrom frontAccepted,
    runFrom_append_left resolves.of_append_left frontResolves first back (Nat.zero_le _)]
  rw [Machine.run_eq_runFrom frontAccepted] at enough
  unfold Machine.executed at enough
  rw [Machine.visits_eq_visitsFrom frontAccepted] at enough
  cases reached : Machine.runFrom front frontLabels stepBound 0 machine with
  | mk ended middle =>
    cases ended with
    | error fault => rfl
    | ok exit =>
      cases exit with
      | leave host => rfl
      | fallThrough =>
        have both := enough middle reached
        rw [Machine.visits_eq_visitsFrom backAccepted] at both
        have start := runFrom_append_right resolves backResolves second
        calc Machine.runFrom (front ++ back) labels _ (front.size + 0) middle
            = Machine.runFrom back backLabels _ 0 middle := start _ 0 middle
          _ = Machine.runFrom back backLabels stepBound 0 middle :=
              runFrom_of_enough (Nat.sub_le _ _) (Nat.le_sub_of_add_le' both)
          _ = middle.run back := (Machine.run_eq_runFrom backAccepted middle).symm

/-- Counts a register down to zero. -/
def countingDown : Array Op :=
  #[.setConstant ⟨0⟩ 3, .label ⟨0⟩, .addConstant ⟨0⟩ ⟨0⟩ (-1), .branch .ne ⟨0⟩ (.constant 0) ⟨0⟩]

/-- Counts the register up to two, and leaves for that address. -/
def countingUp : Array Op :=
  #[.label ⟨1⟩, .addConstant ⟨0⟩ ⟨0⟩ 1, .branch .lt ⟨0⟩ (.constant 2) ⟨1⟩, .leave ⟨0⟩]

/-- Both lists loop. The second one starts with what the first one left in the register. -/
theorem run_joined_looping :
    (placed (countingDown ++ countingUp).toList).Nodup ∧
      BranchesWithin countingDown.toList ∧ BranchesWithin countingUp.toList ∧
      Machine.onRing.executed countingDown = 8 ∧
      (Machine.onRing.run countingDown).1 = .ok .fallThrough ∧
      (Machine.onRing.run countingDown).2.executed countingUp = 6 ∧
      Machine.onRing.run (countingDown ++ countingUp) =
        (Machine.onRing.run countingDown).2.run countingUp ∧
      (Machine.onRing.run (countingDown ++ countingUp)).1 = .ok (.leave ⟨2⟩) := by
  have distinct : (placed (countingDown ++ countingUp).toList).Nodup := by decide
  have first : BranchesWithin countingDown.toList := by decide
  have second : BranchesWithin countingUp.toList := by decide
  have down : Machine.onRing.executed countingDown = 8 := by decide +kernel
  have up : (Machine.onRing.run countingDown).2.executed countingUp = 6 := by decide +kernel
  have fell : (Machine.onRing.run countingDown).1 = .ok .fallThrough := by decide +kernel
  have joined := run_joined distinct first second Machine.onRing fun middle reached => by
    rw [reached] at up
    rw [down, up]
    decide
  rw [show Machine.onRing.run countingDown = (.ok .fallThrough, _) from Prod.ext fell rfl] at joined
  refine ⟨distinct, first, second, down, fell, up, joined, ?_⟩
  rw [joined]
  decide +kernel

end TransferCache.Code
