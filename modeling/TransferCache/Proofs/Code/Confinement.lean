import Mathlib.Data.List.Duplicate
import TransferCache.Proofs.Code.Forward
import TransferCache.Proofs.Context.Confined

/-!
# No operation list can corrupt a context

Any list may be run, not only those that protocols emit: it may loop, read registers that were never
written, and store any word to the stack. The effect on the context is confined all the same
(`step_confined`), at every point that a run passes through (`Executes.confined`).

A run is described without a budget by `Executes`, which counts operations, and by `Ends`, which
says how a run is over. `Concludes` is what a budget makes of it: either the run is over within the
budget, or it is cut off when the budget is spent and there is still an operation to execute.

* `ofOps_eq_error`: a list that places a label twice is refused.
* `runFrom_concludes`: running is executing, up to the budget.
* `run_confined`: all of it for a list run from its first operation.
-/

namespace TransferCache.Code

open ShadowStack (KeepsBounds)

variable {ops : List Op} {labels : Labels} {position : Nat}

/-! ## Labels placed twice -/

/-- Collecting succeeds only if no label is placed twice, or placed and known already. -/
theorem nodup_of_collect {final : Labels}
    (collected : Labels.collect ops position labels = .ok final) :
    (placed ops).Nodup ∧ ∀ label ∈ placed ops, labels.find? label.number.toNat = none := by
  induction ops generalizing position labels with
  | nil => exact ⟨List.nodup_nil, fun label member => nomatch member⟩
  | cons op ops ih =>
    cases nowhere : op.place? with
    | none =>
      have same : placed (op :: ops) = placed ops := List.filterMap_cons_none nowhere
      rw [collect_of_place?_eq_none nowhere] at collected
      rw [same]
      exact ih collected
    | some place =>
      obtain rfl := Op.eq_label_of_place? nowhere
      have grown : placed (.label place :: ops) = place :: placed ops := rfl
      rw [Labels.collect] at collected
      split at collected
      · cases collected
      · next new =>
        obtain ⟨distinct, unknown⟩ := ih collected
        have apart : ∀ label ∈ placed ops, place.number.toNat ≠ label.number.toNat := by
          intro label member same
          have absent := unknown label member
          rw [Numbered.find?_set, if_pos same] at absent
          cases absent
        rw [grown]
        refine ⟨List.nodup_cons.2 ⟨fun member => apart place member rfl, distinct⟩, ?_⟩
        intro label member
        rcases List.mem_cons.1 member with rfl | later
        · exact Option.not_isSome_iff_eq_none.1 new
        · have absent := unknown label later
          rwa [Numbered.find?_set, if_neg (apart label later)] at absent

/-- Collecting fails only at a label that is placed twice, or placed and known already. -/
theorem duplicate_of_collect {fault : Fault}
    (refused : Labels.collect ops position labels = .error fault) :
    ∃ place, fault = .labelRedefined place ∧
      (place ∈ placed ops ∧ labels.find? place.number.toNat ≠ none ∨
        List.Duplicate place (placed ops)) := by
  induction ops generalizing position labels with
  | nil => cases refused
  | cons op ops ih =>
    cases nowhere : op.place? with
    | none =>
      have same : placed (op :: ops) = placed ops := List.filterMap_cons_none nowhere
      rw [collect_of_place?_eq_none nowhere] at refused
      rw [same]
      exact ih refused
    | some place =>
      obtain rfl := Op.eq_label_of_place? nowhere
      have grown : placed (.label place :: ops) = place :: placed ops := rfl
      rw [Labels.collect] at refused
      rw [grown]
      split at refused
      · next known =>
        cases refused
        exact ⟨place, rfl, Or.inl ⟨List.mem_cons_self, Option.isSome_iff_ne_none.1 known⟩⟩
      · obtain ⟨other, named, ⟨later, known⟩ | twice⟩ := ih refused
        · refine ⟨other, named, ?_⟩
          by_cases here : place = other
          · subst here
            exact Or.inr later.duplicate_cons_self
          · have apart : place.number.toNat ≠ other.number.toNat :=
              mt Label.number_injective here
            rw [Numbered.find?_set, if_neg apart] at known
            exact Or.inl ⟨List.mem_cons_of_mem _ later, known⟩
        · exact ⟨other, named, Or.inr (twice.duplicate_cons place)⟩

/-- A list that places a label twice is refused, and the fault names such a label. -/
theorem ofOps_eq_error {ops : Array Op} (twice : ¬(placed ops.toList).Nodup) :
    ∃ place, List.Duplicate place (placed ops.toList) ∧
      Labels.ofOps ops = .error (.labelRedefined place) := by
  cases collected : Labels.ofOps ops with
  | ok final => exact absurd (nodup_of_collect collected).1 twice
  | error fault =>
    obtain ⟨place, rfl, ⟨-, known⟩ | repeated⟩ := duplicate_of_collect collected
    · exact absurd (Numbered.find?_empty _) known
    · exact ⟨place, repeated, rfl⟩

/-! ## One operation -/

/-- A sequence that succeeds does so in both parts. -/
theorem exists_of_bind_eq_ok {ε α β : Type} {first : Except ε α} {second : α → Except ε β}
    {result : β} (ran : first >>= second = .ok result) :
    ∃ value, first = .ok value ∧ second value = .ok result := by
  cases first with
  | error fault => cases ran
  | ok value => exact ⟨value, rfl, ran⟩

namespace Machine

variable {machine after : Machine}

theorem keepsBounds_of_storeField {shadow stored : ShadowStack} {field : StackField}
    {word : UInt64} (accepted : storeField shadow field word = .ok stored) :
    shadow.KeepsBounds stored := by
  unfold storeField at accepted
  cases field with
  | top =>
    dsimp only at accepted
    split at accepted
    · next moved =>
      cases accepted
      exact ShadowStack.keepsBounds_of_setTop? moved
    · cases accepted
  | live =>
    dsimp only at accepted
    split at accepted
    · next counted =>
      cases accepted
      exact ShadowStack.keepsBounds_of_setLive? counted
    · cases accepted
  | limit => cases accepted

theorem call_confined {helper : Helper} {arg dst : Option Temp}
    (called : machine.call helper arg dst = .ok after) : machine.ctx.Confined after.ctx := by
  cases helper with
  | lookupTarget =>
    cases arg with
    | none => cases called
    | some source =>
      obtain ⟨target, -, looked⟩ := exists_of_bind_eq_ok called
      have confined := machine.ctx.confined_lookupTarget ⟨target⟩
      cases dst with
      | none =>
        cases looked
        exact confined
      | some temp =>
        cases looked
        exact confined
  | flushStack =>
    cases called
    exact machine.ctx.confined_flushStack
  | noteOverflow =>
    cases called
    exact machine.ctx.confined_noteOverflow

/-- Whatever an operation is and whatever the registers hold, what it does to the context is
confined. -/
theorem step_confined {op : Op} {flow : Flow}
    (stepped : machine.step labels op = .ok (flow, after)) : machine.ctx.Confined after.ctx := by
  cases op with
  | loadField | setConstant | label =>
    cases stepped
    exact .refl machine.ctx
  | storeField field src =>
    obtain ⟨word, -, rest⟩ := exists_of_bind_eq_ok stepped
    obtain ⟨shadow, accepted, ran⟩ := exists_of_bind_eq_ok rest
    cases ran
    exact Context.confined_withShadow (keepsBounds_of_storeField accepted)
  | loadEntry dst index part =>
    obtain ⟨word, -, rest⟩ := exists_of_bind_eq_ok stepped
    obtain ⟨frame, -, ran⟩ := exists_of_bind_eq_ok rest
    cases ran
    exact .refl machine.ctx
  | storeEntry index part value =>
    obtain ⟨place, -, rest⟩ := exists_of_bind_eq_ok stepped
    obtain ⟨word, -, rest⟩ := exists_of_bind_eq_ok rest
    obtain ⟨frame, -, ran⟩ := exists_of_bind_eq_ok rest
    cases ran
    exact Context.confined_withShadow (machine.ctx.shadow.keepsBounds_setEntry _ _)
  | loadSlot | addConstant | leave =>
    obtain ⟨word, -, ran⟩ := exists_of_bind_eq_ok stepped
    cases ran
    exact .refl machine.ctx
  | branch condition lhs rhs target =>
    obtain ⟨left, -, rest⟩ := exists_of_bind_eq_ok stepped
    obtain ⟨right, -, rest⟩ := exists_of_bind_eq_ok rest
    split at rest
    · obtain ⟨position, -, ran⟩ := exists_of_bind_eq_ok rest
      cases ran
      exact .refl machine.ctx
    · cases rest
      exact .refl machine.ctx
  | call helper arg dst =>
    obtain ⟨called, ran, rest⟩ := exists_of_bind_eq_ok stepped
    cases rest
    exact call_confined ran

end Machine

/-! ## Runs without a budget -/

/-- How far a run has come: the position of the next operation, and the machine. -/
structure Point where
  position : Nat
  machine : Machine

/-- One operation is executed and the run goes on. -/
inductive Goes (ops : Array Op) (labels : Labels) : Point → Point → Prop
  | next {position : Nat} {machine after : Machine} {op : Op} (here : ops[position]? = some op)
    (stepped : machine.step labels op = .ok (.next, after)) :
    Goes ops labels ⟨position, machine⟩ ⟨position + 1, after⟩
  | jump {position target : Nat} {machine after : Machine} {op : Op}
    (here : ops[position]? = some op)
    (stepped : machine.step labels op = .ok (.jump target, after)) :
    Goes ops labels ⟨position, machine⟩ ⟨target, after⟩

/-- So many operations are executed and the run goes on. -/
inductive Executes (ops : Array Op) (labels : Labels) : Nat → Point → Point → Prop
  | none (point : Point) : Executes ops labels 0 point point
  | more {count : Nat} {first second last : Point} (goes : Goes ops labels first second)
    (rest : Executes ops labels count second last) : Executes ops labels (count + 1) first last

/-- The run is over, after at most one more operation. -/
inductive Ends (ops : Array Op) (labels : Labels) :
    Point → Nat → Except Fault Exit × Machine → Prop
  | off {position : Nat} {machine : Machine} (beyond : ops[position]? = none) :
    Ends ops labels ⟨position, machine⟩ 0 (.ok .fallThrough, machine)
  | leave {position : Nat} {machine after : Machine} {op : Op} {host : HostAddr}
    (here : ops[position]? = some op)
    (left : machine.step labels op = .ok (.leave host, after)) :
    Ends ops labels ⟨position, machine⟩ 1 (.ok (.leave host), after)
  | fault {position : Nat} {machine : Machine} {op : Op} {fault : Fault}
    (here : ops[position]? = some op) (failed : machine.step labels op = .error fault) :
    Ends ops labels ⟨position, machine⟩ 1 (.error fault, machine)

/-- The run is over within a budget of operations, or cut off when the budget is spent. -/
inductive Concludes (ops : Array Op) (labels : Labels) (budget : Nat) (start : Point) :
    Except Fault Exit × Machine → Prop
  | done {count last : Nat} {point : Point} {result : Except Fault Exit × Machine}
    (executed : Executes ops labels count start point) (ends : Ends ops labels point last result)
    (within : count + last ≤ budget) : Concludes ops labels budget start result
  | cutOff {point : Point} {op : Op} (executed : Executes ops labels budget start point)
    (here : ops[point.position]? = some op) :
    Concludes ops labels budget start (.error .noExit, point.machine)

section

variable {ops : Array Op} {start point : Point} {count last budget : Nat}
  {result : Except Fault Exit × Machine}

/-- One operation more, with a budget for it. -/
theorem Concludes.more (goes : Goes ops labels start point)
    (concludes : Concludes ops labels budget point result) :
    Concludes ops labels (budget + 1) start result := by
  cases concludes with
  | done executed ends within => exact .done (.more goes executed) ends (by omega)
  | cutOff executed here => exact .cutOff (.more goes executed) here

/-- Running with a budget is executing operations until the run is over or the budget is spent. -/
theorem runFrom_concludes (ops : Array Op) (labels : Labels) (budget position : Nat)
    (machine : Machine) :
    Concludes ops labels budget ⟨position, machine⟩
      (Machine.runFrom ops labels budget position machine) := by
  induction budget generalizing position machine with
  | zero =>
    unfold Machine.runFrom
    split
    · next beyond => exact .done (.none _) (.off beyond) (Nat.zero_le _)
    · next here => exact .cutOff (.none _) here
  | succ budget ih =>
    unfold Machine.runFrom
    split
    · next beyond => exact .done (.none _) (.off beyond) (Nat.zero_le _)
    · next here =>
      dsimp only
      split
      · next failed => exact .done (.none _) (.fault here failed) (by omega)
      · next stepped => exact .more (.next here stepped) (ih _ _)
      · next stepped => exact .more (.jump here stepped) (ih _ _)
      · next left => exact .done (.none _) (.leave here left) (by omega)

/-! ## What runs do to the context -/

theorem Goes.confined (goes : Goes ops labels start point) :
    start.machine.ctx.Confined point.machine.ctx := by
  cases goes with
  | next _ stepped => exact Machine.step_confined stepped
  | jump _ stepped => exact Machine.step_confined stepped

theorem Executes.confined (executed : Executes ops labels count start point) :
    start.machine.ctx.Confined point.machine.ctx := by
  induction executed with
  | none point => exact .refl point.machine.ctx
  | more goes _ ih => exact goes.confined.trans ih

/-- An operation that faults changes nothing. -/
theorem Ends.confined (ends : Ends ops labels point last result) :
    point.machine.ctx.Confined result.2.ctx := by
  cases ends with
  | off _ => exact .refl _
  | leave _ left => exact Machine.step_confined left
  | fault _ _ => exact .refl _

theorem Concludes.confined (concludes : Concludes ops labels budget start result) :
    start.machine.ctx.Confined result.2.ctx := by
  cases concludes with
  | done executed ends _ => exact executed.confined.trans ends.confined
  | cutOff executed _ => exact executed.confined

end

/-! ## Whole lists -/

namespace Machine

theorem run_eq_runFrom {ops : Array Op} (accepted : Labels.ofOps ops = .ok labels)
    (machine : Machine) : machine.run ops = runFrom ops labels stepBound 0 machine := by
  unfold run
  rw [accepted]

theorem run_of_refused {ops : Array Op} {fault : Fault} (refused : Labels.ofOps ops = .error fault)
    (machine : Machine) : machine.run ops = (.error fault, machine) := by
  unfold run
  rw [refused]

theorem confined_run (machine : Machine) (ops : Array Op) :
    machine.ctx.Confined (machine.run ops).2.ctx := by
  cases collected : Labels.ofOps ops with
  | error fault =>
    rw [run_of_refused collected]
    exact .refl machine.ctx
  | ok labels =>
    rw [run_eq_runFrom collected]
    exact (runFrom_concludes ops labels stepBound 0 machine).confined

/-- On a context whose top is an index of the stack, and whose live count is no larger than the
capacity, any list of operations may be run with any registers. It executes no more operations than
the bound, and ends by leaving, by falling off the end or with a fault; a list that places a label
twice is refused before anything happens. Either way what it did to the context is confined, the
stack is in bounds again, and whatever protocols follow, they stay inside the storage of the stack
and leave it in bounds. -/
theorem run_confined {machine : Machine} (bounds : machine.ctx.shadow.InBounds) (ops : Array Op) :
    let ended := machine.run ops
    machine.ctx.Confined ended.2.ctx ∧
      ended.2.ctx.shadow.InBounds ∧
      ((placed ops.toList).Nodup →
        ∃ labels, Resolves labels ops.toList ∧
          Concludes ops labels stepBound ⟨0, machine⟩ ended) ∧
      (¬(placed ops.toList).Nodup →
        ∃ place, List.Duplicate place (placed ops.toList) ∧
          ended = (.error (.labelRedefined place), machine)) ∧
      ∀ later, ended.2.ctx.Reaches later →
        later.shadow.InBounds ∧
        later.shadow.limit = machine.ctx.shadow.limit ∧
        later.shadow.advance.1 < later.shadow.limit ∧
        (later.shadow.isEmpty = false →
          later.shadow.retreat? = some later.shadow.retreat ∧
            later.shadow.retreat < later.shadow.limit) ∧
        later.shadow.frameAt? later.shadow.top = some later.shadow.peek := by
  intro ended
  have confined : machine.ctx.Confined ended.2.ctx := machine.confined_run ops
  refine ⟨confined, confined.shadow.in_bounds bounds, ?_, ?_, ?_⟩
  · intro distinct
    obtain ⟨labels, accepted, resolves⟩ := ofOps_eq_ok distinct
    refine ⟨labels, resolves, ?_⟩
    rw [show ended = _ from run_eq_runFrom accepted machine]
    exact runFrom_concludes ops labels stepBound 0 machine
  · intro twice
    obtain ⟨place, repeated, refused⟩ := ofOps_eq_error twice
    exact ⟨place, repeated, run_of_refused refused machine⟩
  · intro later reached
    have kept := confined.shadow.trans reached.keepsBounds
    have inside := kept.in_bounds bounds
    refine ⟨inside, kept.limit_eq, inside.advance_lt, ?_, inside.frameAt?_top⟩
    exact fun busy => ⟨inside.retreat?_eq busy, inside.retreat_lt busy⟩

/-- A machine on a ring with room for one frame. -/
def onRing : Machine := ofContext (.ofConfig { Config.smallest with overflow := .wrap })

/-- Moves the top to the first index above the base, and then past the end. -/
def corrupting : Array Op :=
  #[.setConstant ⟨0⟩ 1, .storeField .top ⟨0⟩, .setConstant ⟨0⟩ 2, .storeField .top ⟨0⟩]

/-- The second store is refused, and after the first one the ring has a top but counts no frame. A
call and a return from there stay inside the ring. -/
theorem run_confined_corrupting :
    onRing.ctx.shadow.InBounds ∧
      (onRing.run corrupting).1 = .error (.topOutside 2) ∧
      (onRing.run corrupting).2.ctx.shadow.top = 1 ∧
      (onRing.run corrupting).2.ctx.shadow.live = 0 ∧
      (onRing.run corrupting).2.ctx.shadow.InBounds ∧
      (((onRing.run corrupting).2.ctx.push ⟨⟨16⟩, ⟨0⟩, false⟩).state.pop
        ⟨16⟩).state.shadow.InBounds := by
  have bounds : onRing.ctx.shadow.InBounds :=
    (ShadowStack.wellFormed_ofCapacity (by decide) .wrap).inBounds
  obtain ⟨-, inside, -, -, later⟩ := run_confined bounds corrupting
  exact ⟨bounds, rfl, rfl, rfl, inside, (later _ (.pop ⟨16⟩ (.push _ .refl))).1⟩

end Machine

end TransferCache.Code
