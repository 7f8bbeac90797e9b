import TransferCache.Proofs.Code.Forward

/-!
# What each operation does

One equation for every operation that protocols are made of: the list goes on, or the branch skips,
from a machine given outright. The premises say what the registers hold that the operation reads.
-/

namespace TransferCache.Code

/-! ## Counts as words -/

theorem toNat_toUInt64 {count : Nat} (fits : count < UInt64.size) : count.toUInt64.toNat = count :=
  Nat.mod_eq_of_lt fits

theorem toUInt64_lt_iff {count other : Nat} (fits : count < UInt64.size)
    (otherFits : other < UInt64.size) :
    count.toUInt64 < other.toUInt64 ↔ count < other := by
  rw [UInt64.lt_iff_toNat_lt, toNat_toUInt64 fits, toNat_toUInt64 otherFits]

theorem toUInt64_eq_zero_iff {count : Nat} (fits : count < UInt64.size) :
    count.toUInt64 = 0 ↔ count = 0 := by
  rw [← UInt64.toNat_inj, toNat_toUInt64 fits]
  rfl

theorem toUInt64_add_one (count : Nat) : count.toUInt64 + 1 = (count + 1).toUInt64 :=
  (UInt64.ofNat_add count 1).symm

theorem toUInt64_sub_one {count : Nat} (positive : 0 < count) :
    count.toUInt64 + (-1 : Int64).toUInt64 = (count - 1).toUInt64 := by
  obtain ⟨less, rfl⟩ := Nat.exists_eq_add_of_le' positive
  have wraps : (1 : UInt64) + (-1 : Int64).toUInt64 = 0 := by decide
  rw [← toUInt64_add_one, UInt64.add_assoc, wraps, UInt64.add_zero]
  rfl

theorem holds_lt {count other : Nat} (fits : count < UInt64.size)
    (otherFits : other < UInt64.size) :
    Condition.lt.holds count.toUInt64 other.toUInt64 = decide (count < other) :=
  decide_eq_decide.2 (toUInt64_lt_iff fits otherFits)

theorem holds_eq_zero {count : Nat} (fits : count < UInt64.size) :
    Condition.eq.holds count.toUInt64 0 = decide (count = 0) :=
  decide_eq_decide.2 (toUInt64_eq_zero_iff fits)

theorem holds_ne_zero {count : Nat} (fits : count < UInt64.size) :
    Condition.ne.holds count.toUInt64 0 = decide (count ≠ 0) :=
  decide_eq_decide.2 (not_congr (toUInt64_eq_zero_iff fits))

namespace Machine

variable {machine : Machine}

/-! ## Registers -/

theorem temp_number_inj {temp other : Temp} :
    temp.number.toNat = other.number.toNat ↔ temp = other := by
  refine ⟨fun same => ?_, fun same => same ▸ rfl⟩
  cases temp
  cases other
  exact congrArg Temp.mk (UInt16.toNat_inj.1 same)

theorem temp?_bind (machine : Machine) (temp other : Temp) (word : UInt64) :
    (machine.bind temp word).temp? other =
      if temp = other then some word else machine.temp? other := by
  unfold temp? bind
  simp only [Numbered.find?_set, temp_number_inj]

theorem temp?_bind_self (machine : Machine) (temp : Temp) (word : UInt64) :
    (machine.bind temp word).temp? temp = some word := by
  rw [temp?_bind, if_pos rfl]

theorem temp?_bind_ne (machine : Machine) {temp other : Temp} (apart : temp ≠ other)
    (word : UInt64) : (machine.bind temp word).temp? other = machine.temp? other := by
  rw [temp?_bind, if_neg apart]

/-- Every register outside the list holds what it held before. -/
def KeepsOutside (written : List Temp) (before after : Machine) : Prop :=
  ∀ other ∉ written, after.temp? other = before.temp? other

namespace KeepsOutside

variable {written more : List Temp} {before middle after : Machine}

theorem refl (written : List Temp) (machine : Machine) : KeepsOutside written machine machine :=
  fun _ _ => rfl

theorem bind (keeps : KeepsOutside written before after) {temp : Temp} (member : temp ∈ written)
    (word : UInt64) : KeepsOutside written before (after.bind temp word) := by
  intro other outside
  have apart : temp ≠ other := ne_of_mem_of_not_mem member outside
  rw [temp?_bind_ne _ apart]
  exact keeps other outside

theorem mono (keeps : KeepsOutside written before after) (subset : written ⊆ more) :
    KeepsOutside more before after :=
  fun other outside => keeps other fun member => outside (subset member)

theorem trans (first : KeepsOutside written before middle)
    (second : KeepsOutside written middle after) : KeepsOutside written before after :=
  fun other outside => (second other outside).trans (first other outside)

end KeepsOutside

theorem read_eq_ok {temp : Temp} {word : UInt64} (held : machine.temp? temp = some word) :
    machine.read temp = .ok word := by
  unfold read
  rw [held]

/-- What an operand stands for, if that is known. -/
def operand? (machine : Machine) : Operand → Option UInt64
  | .temp source => machine.temp? source
  | .constant word => some word

theorem operand_eq_ok {operand : Operand} {word : UInt64}
    (held : machine.operand? operand = some word) : machine.operand operand = .ok word := by
  cases operand with
  | temp source => exact read_eq_ok held
  | constant other =>
    cases held
    rfl

/-! ## Views of a machine -/

/-- A view of machines that shows their registers, stack and slots as they are. -/
structure Transparent (view : Machine → Machine) : Prop where
  temps_eq (machine : Machine) : (view machine).temps = machine.temps
  shadow_eq (machine : Machine) : (view machine).ctx.shadow = machine.ctx.shadow
  slots_eq (machine : Machine) : (view machine).ctx.slots = machine.ctx.slots
  bind_eq (machine : Machine) (temp : Temp) (word : UInt64) :
    (view machine).bind temp word = view (machine.bind temp word)
  mapShadow_eq (machine : Machine) (change : ShadowStack → ShadowStack) :
    (view machine).mapShadow change = view (machine.mapShadow change)

namespace Transparent

variable {view : Machine → Machine} (transparent : Transparent view)

include transparent

theorem read_eq (machine : Machine) (temp : Temp) :
    (view machine).read temp = machine.read temp := by
  unfold read temp?
  rw [transparent.temps_eq]

theorem operand_eq (machine : Machine) (operand : Operand) :
    (view machine).operand operand = machine.operand operand := by
  cases operand with
  | temp source => exact transparent.read_eq machine source
  | constant word => rfl

/-- An operation that calls no helper does to the view what it does to the machine. -/
theorem step_eq (labels : Labels) (machine : Machine) {op : Op}
    (plain : ∀ helper arg dst, op ≠ .call helper arg dst) :
    (view machine).step labels op =
      (machine.step labels op).map fun (flow, after) => (flow, view after) := by
  cases op with
  | loadField dst field =>
    simp only [step, transparent.shadow_eq, transparent.bind_eq]
    rfl
  | setConstant dst word =>
    simp only [step, transparent.bind_eq]
    rfl
  | label => rfl
  | storeField field src =>
    simp only [step, transparent.read_eq, transparent.shadow_eq, transparent.mapShadow_eq]
    cases machine.read src with
    | error fault => rfl
    | ok word =>
      simp only [Bind.bind, Except.bind]
      cases storeField machine.ctx.shadow field word <;> rfl
  | loadEntry dst index part =>
    simp only [step, transparent.read_eq, transparent.shadow_eq, transparent.bind_eq]
    cases machine.read index with
    | error fault => rfl
    | ok position =>
      simp only [Bind.bind, Except.bind]
      cases frameAt machine.ctx.shadow position <;> rfl
  | storeEntry index part value =>
    simp only [step, transparent.read_eq, transparent.operand_eq, transparent.shadow_eq,
      transparent.mapShadow_eq]
    cases machine.read index with
    | error fault => rfl
    | ok position =>
      cases machine.operand value with
      | error fault => rfl
      | ok word =>
        simp only [Bind.bind, Except.bind]
        cases frameAt machine.ctx.shadow position <;> rfl
  | loadSlot dst src =>
    simp only [step, transparent.read_eq, transparent.slots_eq, transparent.bind_eq]
    cases machine.read src <;> rfl
  | addConstant dst src =>
    simp only [step, transparent.read_eq, transparent.bind_eq]
    cases machine.read src <;> rfl
  | leave src =>
    simp only [step, transparent.read_eq]
    cases machine.read src <;> rfl
  | branch condition lhs rhs target =>
    simp only [step, transparent.read_eq, transparent.operand_eq]
    cases machine.read lhs with
    | error fault => rfl
    | ok left =>
      cases machine.operand rhs with
      | error fault => rfl
      | ok right =>
        simp only [Bind.bind, Except.bind]
        cases condition.holds left right with
        | false => rfl
        | true => cases labels.position target <;> rfl
  | call helper arg dst => exact absurd rfl (plain helper arg dst)

end Transparent

end Machine

/-! ## Operations -/

section

variable {machine : Machine} {word other : UInt64} {ops : List Op} {frame : Frame}
  {lhs index src dst slot target : Temp}

theorem forward_loadField (dst : Temp) (field : StackField) (ops : List Op) (machine : Machine) :
    forward none (.loadField dst field :: ops) machine =
      forward none ops (machine.bind dst (Machine.loadField machine.ctx.shadow field)) := rfl

theorem forward_storeTop (held : machine.temp? src = some word)
    (inside : word.toNat < machine.ctx.shadow.limit) :
    forward none (.storeField .top src :: ops) machine =
      forward none ops
        (machine.mapShadow fun _ => { machine.ctx.shadow with top := word.toNat }) := by
  have stored : Machine.storeField machine.ctx.shadow .top word =
      .ok { machine.ctx.shadow with top := word.toNat } := by
    simp only [Machine.storeField, ShadowStack.setTop?, if_pos inside]
  simp only [forward, Machine.step, Machine.read_eq_ok held, bind, Except.bind, stored, pure,
    Except.pure]

theorem forward_storeLive (held : machine.temp? src = some word)
    (bounded : word.toNat ≤ machine.ctx.shadow.capacity) :
    forward none (.storeField .live src :: ops) machine =
      forward none ops
        (machine.mapShadow fun _ => { machine.ctx.shadow with ringLive := word.toNat }) := by
  have stored : Machine.storeField machine.ctx.shadow .live word =
      .ok { machine.ctx.shadow with ringLive := word.toNat } := by
    simp only [Machine.storeField, ShadowStack.setLive?, if_pos bounded]
  simp only [forward, Machine.step, Machine.read_eq_ok held, bind, Except.bind, stored, pure,
    Except.pure]

theorem frameAt_eq_ok {shadow : ShadowStack} (found : shadow.frameAt? word.toNat = some frame) :
    Machine.frameAt shadow word = .ok frame := by
  unfold Machine.frameAt
  rw [found]

theorem forward_loadEntry (held : machine.temp? index = some word)
    (found : machine.ctx.shadow.frameAt? word.toNat = some frame) (part : FramePart) :
    forward none (.loadEntry dst index part :: ops) machine =
      forward none ops (machine.bind dst (Machine.loadPart frame part)) := by
  simp only [forward, Machine.step, Machine.read_eq_ok held, frameAt_eq_ok found, bind,
    Except.bind, pure, Except.pure]

theorem forward_storeEntry (held : machine.temp? index = some word)
    (found : machine.ctx.shadow.frameAt? word.toNat = some frame) (part : FramePart)
    (value : UInt64) :
    forward none (.storeEntry index part (.constant value) :: ops) machine =
      forward none ops (machine.mapShadow
        (·.setEntry word.toNat (Machine.storePart frame part value))) := by
  simp only [forward, Machine.step, Machine.read_eq_ok held, frameAt_eq_ok found,
    Machine.operand, bind, Except.bind, pure, Except.pure]

theorem forward_loadSlot (held : machine.temp? slot = some word) :
    forward none (.loadSlot dst slot :: ops) machine =
      forward none ops (machine.bind dst (machine.ctx.slots.value ⟨word⟩).word) := by
  simp only [forward, Machine.step, Machine.read_eq_ok held, bind, Except.bind, pure, Except.pure]

theorem forward_setConstant (dst : Temp) (word : UInt64) (ops : List Op) (machine : Machine) :
    forward none (.setConstant dst word :: ops) machine =
      forward none ops (machine.bind dst word) := rfl

theorem forward_addConstant (held : machine.temp? src = some word) (addend : Int64) :
    forward none (.addConstant dst src addend :: ops) machine =
      forward none ops (machine.bind dst (word + addend.toUInt64)) := by
  simp only [forward, Machine.step, Machine.read_eq_ok held, bind, Except.bind, pure, Except.pure]

theorem forward_branch (held : machine.temp? lhs = some word) {rhs : Operand}
    (heldToo : machine.operand? rhs = some other) (condition : Condition) (label : Label) :
    forward none (.branch condition lhs rhs label :: ops) machine =
      forward (if condition.holds word other then some label else none) ops machine := by
  have decided : machine.taken condition lhs rhs = .ok (condition.holds word other) := by
    simp only [Machine.taken, Machine.read_eq_ok held, Machine.operand_eq_ok heldToo, bind,
      Except.bind, pure, Except.pure]
  rw [forward, decided]
  cases condition.holds word other <;> rfl

theorem forward_branch_taken (held : machine.temp? lhs = some word) {rhs : Operand}
    (heldToo : machine.operand? rhs = some other) {condition : Condition}
    (holds : condition.holds word other = true) (label : Label) :
    forward none (.branch condition lhs rhs label :: ops) machine =
      forward (some label) ops machine := by
  rw [forward_branch held heldToo, if_pos holds]

theorem forward_branch_passed (held : machine.temp? lhs = some word) {rhs : Operand}
    (heldToo : machine.operand? rhs = some other) {condition : Condition}
    (fails : condition.holds word other = false) (label : Label) :
    forward none (.branch condition lhs rhs label :: ops) machine = forward none ops machine := by
  rw [forward_branch held heldToo, if_neg (Bool.eq_false_iff.1 fails)]

theorem forward_label (label : Label) (ops : List Op) (machine : Machine) :
    forward none (.label label :: ops) machine = forward none ops machine := rfl

theorem forward_noteOverflow (ops : List Op) (machine : Machine) :
    forward none (.call .noteOverflow none none :: ops) machine =
      forward none ops (machine.perform Context.noteOverflow).2 := rfl

theorem forward_flushStack (ops : List Op) (machine : Machine) :
    forward none (.call .flushStack none none :: ops) machine =
      forward none ops (machine.perform Context.flushStack).2 := rfl

theorem forward_lookupTarget (held : machine.temp? target = some word) :
    forward none (.call .lookupTarget (some target) (some dst) :: ops) machine =
      forward none ops ((machine.perform (·.lookupTarget ⟨word⟩)).2.bind dst
        (machine.ctx.lookupTarget ⟨word⟩).value.word) := by
  simp only [forward, Machine.step, Machine.call, Machine.read_eq_ok held, bind, Except.bind,
    pure, Except.pure]
  rfl

theorem forward_leave (held : machine.temp? target = some word) :
    forward none (.leave target :: ops) machine = (.ok (.leave ⟨word⟩), machine) := by
  simp only [forward, Machine.step, Machine.read_eq_ok held, bind, Except.bind, pure, Except.pure]

/-- Skipping passes over a list that does not place the label. -/
theorem forward_skip_append {label : Label} (elsewhere : label ∉ placed ops) (more : List Op)
    (machine : Machine) :
    forward (some label) (ops ++ more) machine = forward (some label) more machine := by
  induction ops with
  | nil => rfl
  | cons op ops ih =>
    obtain ⟨first, rest⟩ := not_mem_placed_cons elsewhere
    rw [List.cons_append, forward_skip first]
    exact ih rest

end

end TransferCache.Code
