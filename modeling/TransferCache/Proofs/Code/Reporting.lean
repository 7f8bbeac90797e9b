import TransferCache.Proofs.Code.Registers
import TransferCache.Proofs.Context.Accounts
import TransferCache.Proofs.Context.Retraced

/-!
# What runs of compiled code log

Operations touch the counters and the log only through the helpers that they call, and a helper is a
protocol. So whatever a list of operations does, its log accounts for what it counted, and no call
site is refused (`Machine.accounts_run`); and whether transfers are traced makes no difference to
anything but the log (`Machine.run_retraced`).
-/

namespace TransferCache.Code

namespace Machine

variable {machine middle after : Machine} {labels : Labels}

/-! ## Accounts of runs -/

/-- What a machine has logged on the way accounts for what its context has counted, and no call site
was refused. -/
def Accounts (before after : Machine) : Prop :=
  ∃ events, after.log.toList = before.log.toList ++ events ∧
    before.ctx.Accounts events [] after.ctx

namespace Accounts

theorem of_stats_eq (log : after.log = machine.log)
    (switch : after.ctx.traceTransfers = machine.ctx.traceTransfers)
    (stats : after.ctx.stats = machine.ctx.stats) : machine.Accounts after :=
  ⟨[], by rw [log, List.append_nil], .of_stats_eq switch stats⟩

theorem refl (machine : Machine) : machine.Accounts machine := .of_stats_eq rfl rfl rfl

theorem trans (early : machine.Accounts middle) (late : middle.Accounts after) :
    machine.Accounts after := by
  obtain ⟨events, log, first⟩ := early
  obtain ⟨more, logToo, second⟩ := late
  exact ⟨events ++ more, by rw [logToo, log, List.append_assoc], first.trans second⟩

end Accounts

theorem accounts_perform {α : Type} (machine : Machine)
    (operation : Context → Outcome Context α)
    (accounts : machine.ctx.Accounts (operation machine.ctx).events []
      (operation machine.ctx).state) : machine.Accounts (machine.perform operation).2 :=
  ⟨_, Array.toList_appendList, accounts⟩

theorem accounts_of_call {helper : Helper} {arg dst : Option Temp}
    (called : machine.call helper arg dst = .ok after) : machine.Accounts after := by
  cases helper with
  | lookupTarget =>
    cases arg with
    | none => cases called
    | some source =>
      obtain ⟨target, -, looked⟩ := exists_of_bind_eq_ok called
      have accounts := machine.accounts_perform (·.lookupTarget ⟨target⟩)
        (machine.ctx.accounts_lookupTarget ⟨target⟩)
      cases dst with
      | none =>
        cases looked
        exact accounts
      | some temp =>
        cases looked
        exact accounts
  | flushStack =>
    cases called
    exact machine.accounts_perform Context.flushStack machine.ctx.accounts_flushStack
  | noteOverflow =>
    cases called
    exact machine.accounts_perform Context.noteOverflow machine.ctx.accounts_noteOverflow

theorem accounts_of_step {op : Op} {flow : Flow}
    (stepped : machine.step labels op = .ok (flow, after)) : machine.Accounts after := by
  cases effect_of_step stepped with
  | keeps => exact .refl machine
  | changes => exact .of_stats_eq rfl rfl rfl
  | sets => exact .of_stats_eq rfl rfl rfl
  | calls called => exact accounts_of_call called

end Machine

section

variable {ops : Array Op} {labels : Labels} {start point : Point} {count budget : Nat}
  {result : Except Fault Exit × Machine}

theorem Executes.accounts (executed : Executes ops labels count start point) :
    start.machine.Accounts point.machine := by
  induction executed with
  | none point => exact .refl point.machine
  | more goes _ ih =>
    refine Machine.Accounts.trans ?_ ih
    cases goes with
    | next _ stepped => exact Machine.accounts_of_step stepped
    | jump _ stepped => exact Machine.accounts_of_step stepped

theorem Concludes.accounts (concludes : Concludes ops labels budget start result) :
    start.machine.Accounts result.2 := by
  cases concludes with
  | done executed ends _ =>
    refine executed.accounts.trans ?_
    cases ends with
    | off _ => exact .refl _
    | leave _ left => exact Machine.accounts_of_step left
    | fault _ _ => exact .refl _
  | cutOff executed _ => exact executed.accounts

end

namespace Machine

theorem accounts_run (machine : Machine) (ops : Array Op) :
    machine.Accounts (machine.run ops).2 := by
  cases collected : Labels.ofOps ops with
  | error fault =>
    rw [run_of_refused collected]
    exact .refl machine
  | ok labels =>
    rw [run_eq_runFrom collected]
    exact (runFrom_concludes ops labels stepBound 0 machine).accounts

/-! ## Runs with and without tracing -/

/-- The machine on the context with the switch for tracing in the given position, and with another
log. -/
def retraced (traces : Bool) (log : Array Event) (machine : Machine) : Machine :=
  ⟨machine.ctx.retraced traces, machine.temps, log⟩

variable (traces : Bool) (log : Array Event) (machine : Machine)

theorem transparent_retraced : Transparent (retraced traces log) :=
  ⟨fun _ => rfl, fun _ => rfl, fun _ => rfl, fun _ _ _ => rfl, fun _ _ => rfl⟩

theorem call_retraced (helper : Helper) (arg dst : Option Temp) :
    ∃ logged, (machine.retraced traces log).call helper arg dst =
      (machine.call helper arg dst).map (retraced traces logged) := by
  cases helper with
  | lookupTarget =>
    cases arg with
    | none => exact ⟨log, rfl⟩
    | some source =>
      simp only [call, perform, (transparent_retraced traces log).read_eq]
      cases machine.read source with
      | error fault => exact ⟨log, rfl⟩
      | ok target =>
        obtain ⟨value, state⟩ := machine.ctx.agrees_lookupTarget traces ⟨target⟩
        simp only [retraced, Bind.bind, Except.bind, value, state]
        cases dst <;> exact ⟨_, rfl⟩
  | flushStack => exact ⟨_, rfl⟩
  | noteOverflow => exact ⟨_, rfl⟩

theorem step_retraced (labels : Labels) (op : Op) :
    ∃ logged, (machine.retraced traces log).step labels op =
      (machine.step labels op).map fun (flow, after) => (flow, after.retraced traces logged) := by
  have view := transparent_retraced traces log
  cases op with
  | call helper arg dst =>
    obtain ⟨logged, called⟩ := machine.call_retraced traces log helper arg dst
    refine ⟨logged, ?_⟩
    simp only [step, called]
    cases machine.call helper arg dst <;> rfl
  | _ => exact ⟨log, view.step_eq labels machine fun _ _ _ => Op.noConfusion⟩

theorem runFrom_retraced (ops : Array Op) (labels : Labels) (budget position : Nat) :
    ∃ logged, runFrom ops labels budget position (machine.retraced traces log) =
      ((runFrom ops labels budget position machine).1,
        (runFrom ops labels budget position machine).2.retraced traces logged) := by
  induction budget generalizing position machine log with
  | zero =>
    unfold runFrom
    split <;> exact ⟨log, rfl⟩
  | succ budget ih =>
    unfold runFrom
    split
    · exact ⟨log, rfl⟩
    · next op _ =>
      obtain ⟨logged, stepped⟩ := machine.step_retraced traces log labels op
      simp only [stepped]
      cases machine.step labels op with
      | error fault => exact ⟨log, rfl⟩
      | ok outcome =>
        obtain ⟨flow, after⟩ := outcome
        cases flow with
        | next => exact ih logged after (position + 1)
        | jump target => exact ih logged after target
        | leave host => exact ⟨logged, rfl⟩

/-- Tracing changes neither how a run ends nor what it leaves in registers and context. -/
theorem run_retraced (ops : Array Op) :
    ∃ logged, (machine.retraced traces log).run ops =
      ((machine.run ops).1, (machine.run ops).2.retraced traces logged) := by
  unfold run
  cases Labels.ofOps ops with
  | error fault => exact ⟨log, rfl⟩
  | ok labels => exact machine.runFrom_retraced traces log ops labels stepBound 0

end Machine

end TransferCache.Code
