import TransferCache.Proofs.Code.Execution
import TransferCache.Proofs.Code.Confinement

/-!
# What operations do with registers

An operation reads some registers and writes at most one. Those it reads have to be set, or else it
faults; the one it writes is set afterwards; and it changes no other.

* `fault_cause`: what a fault says about the operation that met it.
* `effect_of_step`: what an operation that meets none does to the machine.
* `setsOnly_of_step`: what is in the registers after it.
-/

namespace TransferCache.Code

/-! ## Reading and writing -/

def Operand.reads : Operand → List Temp
  | .temp source => [source]
  | .constant _ => []

/-- The registers that an operation reads. Only a lookup reads the argument of its call. -/
def Op.reads : Op → List Temp
  | .loadField _ _ => []
  | .storeField _ src => [src]
  | .loadEntry _ index _ => [index]
  | .storeEntry index _ value => index :: value.reads
  | .loadSlot _ slot => [slot]
  | .setConstant _ _ => []
  | .addConstant _ src _ => [src]
  | .branch _ lhs rhs _ => lhs :: rhs.reads
  | .label _ => []
  | .call .lookupTarget arg _ => arg.toList
  | .call .flushStack _ _ => []
  | .call .noteOverflow _ _ => []
  | .leave target => [target]

/-- The register that an operation writes. Only a lookup writes the destination of its call. -/
def Op.writes? : Op → Option Temp
  | .loadField dst _ => some dst
  | .storeField _ _ => none
  | .loadEntry dst _ _ => some dst
  | .storeEntry _ _ _ => none
  | .loadSlot dst _ => some dst
  | .setConstant dst _ => some dst
  | .addConstant dst _ _ => some dst
  | .branch _ _ _ _ => none
  | .label _ => none
  | .call .lookupTarget _ dst => dst
  | .call .flushStack _ _ => none
  | .call .noteOverflow _ _ => none
  | .leave _ => none

/-- What a fault of one operation says about it: an unset register is one that it reads, and neither
the bound nor the places of labels are checked while it executes. -/
def Op.Explains (op : Op) (machine : Machine) : Fault → Prop
  | .unsetTemp temp => temp ∈ op.reads ∧ machine.temp? temp = none
  | .noExit => False
  | .labelRedefined _ => False
  | .frameOutside _ | .topOutside _ | .liveOutside _ | .limitStored | .targetMissing
  | .labelUndefined _ => True

variable {machine after : Machine} {labels : Labels} {op : Op} {flow : Flow} {fault : Fault}
  {temp : Temp}

/-! ## Faults -/

/-- A sequence that fails does so in its first part, or in its second. -/
theorem error_of_bind {ε α β : Type} {first : Except ε α} {second : α → Except ε β} {failure : ε}
    (failed : first >>= second = .error failure) :
    first = .error failure ∨ ∃ value, first = .ok value ∧ second value = .error failure := by
  cases first with
  | error other =>
    cases failed
    exact Or.inl rfl
  | ok value => exact Or.inr ⟨value, rfl, failed⟩

theorem unset_of_read (failed : machine.read temp = .error fault) :
    fault = .unsetTemp temp ∧ machine.temp? temp = none := by
  unfold Machine.read at failed
  cases held : machine.temp? temp with
  | some word =>
    rw [held] at failed
    cases failed
  | none =>
    rw [held] at failed
    cases failed
    exact ⟨rfl, rfl⟩

theorem explains_of_read (member : temp ∈ op.reads) (failed : machine.read temp = .error fault) :
    op.Explains machine fault := by
  obtain ⟨rfl, unset⟩ := unset_of_read failed
  exact ⟨member, unset⟩

theorem explains_of_operand {operand : Operand} (subset : operand.reads ⊆ op.reads)
    (failed : machine.operand operand = .error fault) : op.Explains machine fault := by
  cases operand with
  | temp source => exact explains_of_read (subset List.mem_cons_self) failed
  | constant word => cases failed

theorem explains_of_frameAt {shadow : ShadowStack} {index : UInt64}
    (failed : Machine.frameAt shadow index = .error fault) : op.Explains machine fault := by
  unfold Machine.frameAt at failed
  split at failed <;> cases failed
  trivial

theorem explains_of_storeField {shadow : ShadowStack} {field : StackField} {word : UInt64}
    (failed : Machine.storeField shadow field word = .error fault) : op.Explains machine fault := by
  unfold Machine.storeField at failed
  split at failed
  · split at failed <;> cases failed
    trivial
  · split at failed <;> cases failed
    trivial
  · cases failed
    trivial

theorem explains_of_position {label : Label} (failed : labels.position label = .error fault) :
    op.Explains machine fault := by
  unfold Labels.position at failed
  split at failed <;> cases failed
  trivial

theorem explains_of_call {helper : Helper} {arg dst : Option Temp}
    (failed : machine.call helper arg dst = .error fault) :
    (Op.call helper arg dst).Explains machine fault := by
  cases helper with
  | lookupTarget =>
    cases arg with
    | none =>
      cases failed
      trivial
    | some source =>
      rcases error_of_bind failed with unset | ⟨target, -, looked⟩
      · exact explains_of_read List.mem_cons_self unset
      · cases dst <;> cases looked
  | flushStack => cases failed
  | noteOverflow => cases failed

theorem fault_cause (failed : machine.step labels op = .error fault) :
    op.Explains machine fault := by
  cases op with
  | loadField | setConstant | label => cases failed
  | storeField field src =>
    rcases error_of_bind failed with unset | ⟨word, -, rest⟩
    · exact explains_of_read List.mem_cons_self unset
    · rcases error_of_bind rest with refused | ⟨shadow, -, ended⟩
      · exact explains_of_storeField refused
      · cases ended
  | loadEntry dst index part =>
    rcases error_of_bind failed with unset | ⟨position, -, rest⟩
    · exact explains_of_read List.mem_cons_self unset
    · rcases error_of_bind rest with outside | ⟨frame, -, ended⟩
      · exact explains_of_frameAt outside
      · cases ended
  | storeEntry index part value =>
    rcases error_of_bind failed with unset | ⟨position, -, rest⟩
    · exact explains_of_read List.mem_cons_self unset
    · rcases error_of_bind rest with unset | ⟨word, -, rest⟩
      · exact explains_of_operand (List.subset_cons_self _ _) unset
      · rcases error_of_bind rest with outside | ⟨frame, -, ended⟩
        · exact explains_of_frameAt outside
        · cases ended
  | loadSlot | addConstant | leave =>
    rcases error_of_bind failed with unset | ⟨word, -, ended⟩
    · exact explains_of_read List.mem_cons_self unset
    · cases ended
  | branch condition lhs rhs target =>
    rcases error_of_bind failed with unset | ⟨left, -, rest⟩
    · exact explains_of_read List.mem_cons_self unset
    · rcases error_of_bind rest with unset | ⟨right, -, rest⟩
      · exact explains_of_operand (List.subset_cons_self _ _) unset
      · split at rest
        · rcases error_of_bind rest with undefined | ⟨position, -, ended⟩
          · exact explains_of_position undefined
          · cases ended
        · cases rest
  | call helper arg dst =>
    rcases error_of_bind failed with refused | ⟨called, -, ended⟩
    · exact explains_of_call refused
    · cases ended

/-! ## After an operation -/

/-- A machine whose registers are those of another, but for one that has been set. -/
def SetsOnly (written : Option Temp) (machine after : Machine) : Prop :=
  ∀ temp, (written ≠ some temp → after.temp? temp = machine.temp? temp) ∧
    (written = some temp → (after.temp? temp).isSome)

theorem SetsOnly.isSome {written : Option Temp} (sets : SetsOnly written machine after)
    (known : (machine.temp? temp).isSome ∨ written = some temp) : (after.temp? temp).isSome := by
  by_cases here : written = some temp
  · exact (sets temp).2 here
  · rw [(sets temp).1 here]
    exact known.resolve_right here

theorem setsOnly_none {after : Machine} (same : after.temps = machine.temps) :
    SetsOnly none machine after := by
  refine fun temp => ⟨fun _ => ?_, fun written => nomatch written⟩
  unfold Machine.temp?
  rw [same]

theorem setsOnly_bind {middle : Machine} (same : middle.temps = machine.temps) (dst : Temp)
    (word : UInt64) : SetsOnly (some dst) machine (middle.bind dst word) := by
  refine fun temp => ⟨fun elsewhere => ?_, fun written => ?_⟩
  · rw [Machine.temp?_bind_ne _ fun here => elsewhere (congrArg some here)]
    unfold Machine.temp?
    rw [same]
  · cases written
    rw [Machine.temp?_bind_self]
    rfl

theorem setsOnly_call {helper : Helper} {arg dst : Option Temp}
    (called : machine.call helper arg dst = .ok after) :
    SetsOnly (Op.call helper arg dst).writes? machine after := by
  cases helper with
  | lookupTarget =>
    cases arg with
    | none => cases called
    | some source =>
      obtain ⟨target, -, looked⟩ := exists_of_bind_eq_ok called
      cases dst with
      | none =>
        cases looked
        exact setsOnly_none rfl
      | some dst =>
        cases looked
        exact setsOnly_bind rfl dst _
  | flushStack =>
    cases called
    exact setsOnly_none rfl
  | noteOverflow =>
    cases called
    exact setsOnly_none rfl

/-- What an operation does to a machine: it leaves it as it is, changes the shadow stack, sets a
register, or calls a helper. -/
inductive Effect (machine : Machine) : Op → Machine → Prop
  | keeps {op : Op} (writes : op.writes? = none) : Effect machine op machine
  | changes {op : Op} (change : ShadowStack → ShadowStack) (writes : op.writes? = none) :
    Effect machine op (machine.mapShadow change)
  | sets {op : Op} {dst : Temp} (word : UInt64) (writes : op.writes? = some dst) :
    Effect machine op (machine.bind dst word)
  | calls {helper : Helper} {arg dst : Option Temp} {after : Machine}
    (called : machine.call helper arg dst = .ok after) : Effect machine (.call helper arg dst) after

theorem effect_of_step (stepped : machine.step labels op = .ok (flow, after)) :
    Effect machine op after := by
  cases op with
  | loadField | setConstant =>
    cases stepped
    exact .sets _ rfl
  | label =>
    cases stepped
    exact .keeps rfl
  | storeField field src =>
    obtain ⟨word, -, rest⟩ := exists_of_bind_eq_ok stepped
    obtain ⟨shadow, -, ran⟩ := exists_of_bind_eq_ok rest
    cases ran
    exact .changes _ rfl
  | loadEntry dst index part =>
    obtain ⟨position, -, rest⟩ := exists_of_bind_eq_ok stepped
    obtain ⟨frame, -, ran⟩ := exists_of_bind_eq_ok rest
    cases ran
    exact .sets _ rfl
  | storeEntry index part value =>
    obtain ⟨position, -, rest⟩ := exists_of_bind_eq_ok stepped
    obtain ⟨word, -, rest⟩ := exists_of_bind_eq_ok rest
    obtain ⟨frame, -, ran⟩ := exists_of_bind_eq_ok rest
    cases ran
    exact .changes _ rfl
  | loadSlot | addConstant =>
    obtain ⟨word, -, ran⟩ := exists_of_bind_eq_ok stepped
    cases ran
    exact .sets _ rfl
  | branch condition lhs rhs target =>
    obtain ⟨left, -, rest⟩ := exists_of_bind_eq_ok stepped
    obtain ⟨right, -, rest⟩ := exists_of_bind_eq_ok rest
    split at rest
    · obtain ⟨position, -, ran⟩ := exists_of_bind_eq_ok rest
      cases ran
      exact .keeps rfl
    · cases rest
      exact .keeps rfl
  | call helper arg dst =>
    obtain ⟨called, ran, rest⟩ := exists_of_bind_eq_ok stepped
    cases rest
    exact .calls ran
  | leave target =>
    obtain ⟨word, -, ran⟩ := exists_of_bind_eq_ok stepped
    cases ran
    exact .keeps rfl

/-- An operation sets the register that it writes, and leaves the others as they are. -/
theorem setsOnly_of_step (stepped : machine.step labels op = .ok (flow, after)) :
    SetsOnly op.writes? machine after := by
  cases effect_of_step stepped with
  | keeps writes =>
    rw [writes]
    exact setsOnly_none rfl
  | changes change writes =>
    rw [writes]
    exact setsOnly_none rfl
  | sets word writes =>
    rw [writes]
    exact setsOnly_bind rfl _ word
  | calls called => exact setsOnly_call called

end TransferCache.Code
