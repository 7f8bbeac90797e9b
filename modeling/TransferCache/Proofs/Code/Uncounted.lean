import TransferCache.Proofs.Code.Lockstep

/-!
# Compiled code and the counts it does not keep

`Context.uncounted` takes four counters away that no operation reads or writes. So a list of
operations runs on a context as it runs on the uncounted one: it is left in the same way, with the
same registers and the same log, and what it did to the contexts differs in those counters alone.
What is known of blocks on uncounted contexts is thereby known of blocks on every context.

* `forward_uncounted`: reading a list commutes with taking the counts away.
* `Draft.Built.run_of_shaped`: a block on any context of its shape.
-/

namespace TransferCache.Code

namespace Machine

/-- The machine on the context without its counts. -/
def uncounted (machine : Machine) : Machine := { machine with ctx := machine.ctx.uncounted }

@[simp] theorem ctx_uncounted (machine : Machine) :
    machine.uncounted.ctx = machine.ctx.uncounted := rfl

@[simp] theorem read_uncounted (machine : Machine) (temp : Temp) :
    machine.uncounted.read temp = machine.read temp := rfl

@[simp] theorem operand_uncounted (machine : Machine) (operand : Operand) :
    machine.uncounted.operand operand = machine.operand operand := by
  cases operand <;> rfl

theorem call_uncounted (machine : Machine) (helper : Helper) (arg dst : Option Temp) :
    machine.uncounted.call helper arg dst = (machine.call helper arg dst).map uncounted := by
  cases helper with
  | lookupTarget =>
    cases arg with
    | none => rfl
    | some source =>
      simp only [call, perform, read_uncounted, ctx_uncounted, Context.lookupTarget_uncounted]
      cases machine.read source with
      | error fault => rfl
      | ok target => cases dst <;> rfl
  | flushStack => rfl
  | noteOverflow => rfl

theorem transparent_uncounted : Transparent uncounted :=
  ⟨fun _ => rfl, fun _ => rfl, fun _ => rfl, fun _ _ _ => rfl, fun _ _ => rfl⟩

theorem step_uncounted (labels : Labels) (machine : Machine) (op : Op) :
    machine.uncounted.step labels op =
      (machine.step labels op).map fun (flow, after) => (flow, after.uncounted) := by
  cases op with
  | call helper arg dst =>
    simp only [step, call_uncounted]
    cases machine.call helper arg dst <;> rfl
  | _ => exact transparent_uncounted.step_eq labels machine fun _ _ _ => Op.noConfusion

end Machine

/-- Reading a list commutes with taking the counts away. -/
theorem forward_uncounted (skipping : Option Label) (ops : List Op) (machine : Machine) :
    forward skipping ops machine.uncounted =
      ((forward skipping ops machine).1, (forward skipping ops machine).2.uncounted) := by
  induction ops generalizing skipping machine with
  | nil => cases skipping <;> rfl
  | cons op ops ih =>
    cases skipping with
    | some label =>
      unfold forward
      split
      · exact ih none machine
      · exact ih (some label) machine
    | none =>
      cases straight : op.target? with
      | none =>
        rw [forward_of_target?_eq_none straight, forward_of_target?_eq_none straight,
          Machine.step_uncounted]
        cases machine.step .empty op with
        | error fault => rfl
        | ok outcome =>
          obtain ⟨flow, after⟩ := outcome
          cases flow with
          | leave host => rfl
          | next => exact ih none after
          | jump position => exact ih none after
      | some label =>
        cases op with
        | branch condition lhs rhs target =>
          have decided : machine.uncounted.taken condition lhs rhs =
              machine.taken condition lhs rhs := by
            simp only [Machine.taken, Machine.read_uncounted, Machine.operand_uncounted]
          unfold forward
          rw [decided]
          cases machine.taken condition lhs rhs with
          | error fault => rfl
          | ok decision =>
            cases decision with
            | true => exact ih (some target) machine
            | false => exact ih none machine
        | _ => cases straight

namespace Draft

variable {policy : OverflowPolicy} {capacity : Nat} {draft : Draft} {machine : Machine}
  {word : Temp → UInt64}

/-- Reading a draft on any context of its shape is performing its protocols, the counts apart. -/
theorem Faithful.reads_of_shaped (faithful : draft.Faithful policy capacity)
    (shaped : Shaped policy capacity machine.ctx) (supplied : draft.Supplied machine word) :
    (forward none draft.builder.ops.toList machine).1 =
        .ok (directly word draft.calls machine.ctx).1 ∧
      (forward none draft.builder.ops.toList machine).2.ctx.uncounted =
        (directly word draft.calls machine.ctx).2.uncounted ∧
      ∀ temp ∈ draft.inputs,
        (forward none draft.builder.ops.toList machine).2.temp? temp = machine.temp? temp := by
  obtain ⟨after, ran, state, kept⟩ :=
    faithful.reads machine.uncounted machine.ctx word rfl shaped supplied
  rw [forward_uncounted] at ran
  obtain ⟨exit, rfl⟩ := Prod.mk.inj ran
  exact ⟨exit, state, fun temp member => kept temp (Or.inl member)⟩

/-- No counter of the builder wraps around. -/
structure WellNumbered (draft : Draft) : Prop where
  temps_le : draft.builder.temps ≤ UInt16.size
  labels_le : draft.builder.labels ≤ UInt16.size

/-- A draft that is run to its end on any context of its shape does not fault, and does to the stack
what performing its protocols does. -/
theorem Built.run_of_shaped (built : Built policy capacity draft) (numbered : draft.WellNumbered)
    (shaped : Shaped policy capacity machine.ctx) (supplied : draft.Supplied machine word)
    (ended : (machine.run draft.builder.ops).1 ≠ .error .noExit) :
    (machine.run draft.builder.ops).1 = .ok (directly word draft.calls machine.ctx).1 ∧
      (machine.run draft.builder.ops).2.ctx.shadow =
        (directly word draft.calls machine.ctx).2.shadow := by
  have faithful := built.faithful numbered.temps_le numbered.labels_le
  obtain ⟨exit, state, -⟩ := faithful.reads_of_shaped shaped supplied
  rw [run_eq_forward_of_ended faithful.distinct faithful.leads ended]
  have sameStack := congrArg Context.shadow state
  exact ⟨exit, sameStack⟩

end Draft

end TransferCache.Code
