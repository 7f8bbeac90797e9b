import TransferCache.Proofs.Code.Drafts
import TransferCache.Proofs.Code.Paths

/-!
# What emitted blocks look like

A block is built by any calls that append to it, for contexts of any policy and capacity, among
which the caller may ask for registers of its own. As long as the counters of the builder do not
wrap around, every label that was given out is placed once, and behind all branches to it; a
register is read only after it has been written, on every control path, unless it was passed to one
of the calls; and no register of the caller is written.

* `Emitted.Sound`: this, in a form that appending a part keeps (`Emitted.Sound.extend`).
* `emit_wellFormed`: all of it for any block, and what lists that only branch forward have of it.
-/

namespace TransferCache.Code

/-! ## Appending to a block -/

/-- A call that appends to a block. -/
inductive Emission where
  /-- Give out a register to the caller. -/
  | input
  | push (ctx : Context) (registry : Registry) (ret : GuestAddr)
  | pop (ctx : Context) (actual : Temp)
  | lookup (target : Temp)
  | flush

/-- A builder, the registers that it has given out to the caller, and those that the caller has
passed to it. -/
structure Emitted where
  builder : Builder
  inputs : List Temp
  passed : List Temp

namespace Emitted

def empty : Emitted := ⟨.empty, [], []⟩

def append (emitted : Emitted) : Emission → Emitted
  | .input =>
    let (temp, builder) := emitted.builder.newTemp
    { emitted with builder, inputs := temp :: emitted.inputs }
  | .push ctx registry ret =>
    { emitted with builder := (emitted.builder.emitPush ctx registry ret).state.2 }
  | .pop ctx actual =>
    { emitted with
      builder := emitted.builder.emitPop ctx actual
      passed := actual :: emitted.passed }
  | .lookup target =>
    { emitted with
      builder := emitted.builder.emitLookup target
      passed := target :: emitted.passed }
  | .flush => { emitted with builder := emitted.builder.emitFlush }

def appendAll (emitted : Emitted) (emissions : List Emission) : Emitted :=
  emissions.foldl append emitted

def ops (emitted : Emitted) : Array Op := emitted.builder.ops

end Emitted

/-- Builds a block from nothing. -/
def emit (emissions : List Emission) : Emitted := Emitted.empty.appendAll emissions

/-! ## Parts of a block -/

namespace Builder

variable {builder : Builder} {offset count : Nat}

theorem freshTemp_mem (below : offset < count) :
    builder.freshTemp offset ∈ builder.freshTemps count :=
  List.mem_map_of_mem (List.mem_range.2 below)

theorem mem_freshTemps (room : builder.temps + count ≤ UInt16.size) {temp : Temp}
    (member : temp ∈ builder.freshTemps count) :
    builder.temps ≤ temp.number.toNat ∧ temp.number.toNat < builder.temps + count := by
  have inside := mt (not_mem_freshTemps room) (not_not_intro member)
  omega

theorem mem_freshLabels_iff (room : builder.labels + count ≤ UInt16.size) {label : Label} :
    label ∈ builder.freshLabels count ↔
      builder.labels ≤ label.number.toNat ∧ label.number.toNat < builder.labels + count := by
  refine ⟨mem_freshLabels room, fun ⟨least, below⟩ => List.mem_map.2 ?_⟩
  refine ⟨label.number.toNat - builder.labels, List.mem_range.2 (by omega), ?_⟩
  apply Label.number_injective
  rw [toNat_freshLabel (by omega)]
  omega

/-- A part may be appended with so many fresh registers and labels, and with some given registers:
its branches lead forward and stay inside it, it places these labels, and it writes no other
registers and reads none before they are written, save for the given ones. -/
structure Takes (builder : Builder) (temps labels : Nat) (given : List Temp) (part : List Op) :
    Prop where
  leads : LeadsForward part
  places : (placed part).Perm (builder.freshLabels labels)
  settled : Settled given none part
  writes : ∀ op ∈ part, ∀ temp, op.writes? = some temp → temp ∈ builder.freshTemps temps

theorem takes_pushReset (builder : Builder) (site : CallSite) :
    let top := builder.freshTemp 0
    let inRange := builder.freshLabel 0
    builder.Takes 2 1 []
      (advanceOps top (builder.freshTemp 1) inRange ++ restartOps top inRange ++
        storeFrameOps top site) where
  leads := by
    simp [advanceOps, restartOps, storeFrameOps, LeadsForward, placed, Op.target?, Op.place?]
  places := List.Perm.refl _
  settled := by
    simp [advanceOps, restartOps, storeFrameOps, Settled, Op.reads, Op.writes?, Op.target?,
      Op.place?, Op.leaves, Operand.reads]
  writes := by
    simp [advanceOps, restartOps, storeFrameOps, Op.writes?, freshTemp_mem]

theorem takes_pushWrap (builder : Builder) (capacity : Nat) (site : CallSite) :
    let top := builder.freshTemp 0
    let live := builder.freshTemp 2
    let inRange := builder.freshLabel 0
    builder.Takes 3 2 []
      (advanceOps top (builder.freshTemp 1) inRange ++
        ringPushOps capacity top live inRange (builder.freshLabel 1) ++ storeFrameOps top site ++
        [.storeField .live live]) where
  leads := by
    simp [advanceOps, ringPushOps, storeFrameOps, LeadsForward, placed, Op.target?, Op.place?]
  places := List.Perm.refl _
  settled := by
    simp [advanceOps, ringPushOps, storeFrameOps, Settled, Op.reads, Op.writes?, Op.target?,
      Op.place?, Op.leaves, Operand.reads]
  writes := by
    simp [advanceOps, ringPushOps, storeFrameOps, Op.writes?, freshTemp_mem]

theorem takes_popReset (builder : Builder) (actual : Temp) :
    let top := builder.freshTemp 0
    let slot := builder.freshTemp 2
    let host := builder.freshTemp 3
    let miss := builder.freshLabel 0
    builder.Takes 4 1 [actual]
      (matchOps actual top (builder.freshTemp 1) miss ++ takeFrameOps top slot host ++
        [.storeField .top top] ++ leaveOps host miss) where
  leads := by
    simp [matchOps, takeFrameOps, leaveOps, LeadsForward, placed, Op.target?, Op.place?]
  places := List.Perm.refl _
  settled := by
    simp [matchOps, takeFrameOps, leaveOps, Settled, Op.reads, Op.writes?, Op.target?, Op.place?,
      Op.leaves, Operand.reads]
  writes := by
    simp [matchOps, takeFrameOps, leaveOps, Op.writes?, freshTemp_mem]

theorem takes_popWrap (room : builder.labels + 3 ≤ UInt16.size) (capacity : Nat) (actual : Temp) :
    let top := builder.freshTemp 0
    let slot := builder.freshTemp 2
    let host := builder.freshTemp 3
    let miss := builder.freshLabel 0
    builder.Takes 5 3 [actual]
      (matchOps actual top (builder.freshTemp 1) miss ++ takeFrameOps top slot host ++
        ringPopOps capacity top (builder.freshTemp 4) (builder.freshLabel 1)
          (builder.freshLabel 2) ++ leaveOps host miss) where
  leads := by
    simp [matchOps, takeFrameOps, ringPopOps, leaveOps, LeadsForward, placed, Op.target?,
      Op.place?]
  places := by
    -- the first of the labels, the one for a miss, is placed last
    change ([builder.freshLabel 1, builder.freshLabel 2] ++ [builder.freshLabel 0]).Perm
      ([builder.freshLabel 0] ++ _)
    exact List.perm_append_comm
  settled := by
    have apart : [builder.freshLabel 0, builder.freshLabel 1, builder.freshLabel 2].Nodup :=
      nodup_freshLabels room
    have missApart := (List.nodup_cons.1 apart).1
    have steppedApart := (List.ne_of_not_mem_cons missApart).symm
    have storedApart := (List.ne_of_not_mem_cons (List.not_mem_of_not_mem_cons missApart)).symm
    simp [matchOps, takeFrameOps, ringPopOps, leaveOps, Settled, Op.reads, Op.writes?,
      Op.target?, Op.place?, Op.leaves, Operand.reads, steppedApart, storedApart]
  writes := by
    simp [matchOps, takeFrameOps, ringPopOps, leaveOps, Op.writes?, freshTemp_mem]

theorem takes_lookup (builder : Builder) (target : Temp) :
    builder.Takes 1 0 [target]
      [.call .lookupTarget (some target) (some (builder.freshTemp 0)),
        .leave (builder.freshTemp 0)] where
  leads := by simp [LeadsForward, placed, Op.target?]
  places := List.Perm.refl _
  settled := by simp [Settled, Op.reads, Op.writes?, Op.target?, Op.leaves]
  writes := by simp [Op.writes?, freshTemp_mem]

theorem takes_flush (builder : Builder) :
    builder.Takes 0 0 [] [.call .flushStack none none] where
  leads := by simp [LeadsForward, placed, Op.target?]
  places := List.Perm.refl _
  settled := by simp [Settled, Op.reads, Op.target?, Op.leaves]
  writes := by simp [Op.writes?]

end Builder

/-! ## Blocks under construction -/

namespace Emitted

/-- Every label that was given out is placed once, and behind all branches to it; registers are
written before they are read, unless they were passed; and those of the caller are not written. -/
structure Sound (emitted : Emitted) : Prop where
  leads : LeadsForward emitted.ops.toList
  distinct : (placed emitted.ops.toList).Nodup
  placed_iff : ∀ label,
    label ∈ placed emitted.ops.toList ↔ label.number.toNat < emitted.builder.labels
  settled : Settled emitted.passed none emitted.ops.toList
  inputs_lt : ∀ input ∈ emitted.inputs, input.number.toNat < emitted.builder.temps
  written : ∀ op ∈ emitted.ops.toList, ∀ temp, op.writes? = some temp →
    temp.number.toNat < emitted.builder.temps ∧ temp ∉ emitted.inputs

variable {emitted : Emitted}

theorem sound_empty : empty.Sound where
  leads := trivial
  distinct := List.nodup_nil
  placed_iff _ := ⟨(nomatch ·), fun below => absurd below (Nat.not_lt_zero _)⟩
  settled := trivial
  inputs_lt _ member := nomatch member
  written _ member := nomatch member

/-- A part whose registers and labels are fresh can be appended. -/
theorem Sound.extend (sound : emitted.Sound) {temps labels : Nat} {given : List Temp}
    {part : List Op} (takes : emitted.builder.Takes temps labels given part)
    (tempRoom : emitted.builder.temps + temps ≤ UInt16.size)
    (labelRoom : emitted.builder.labels + labels ≤ UInt16.size) :
    Sound ⟨emitted.builder.extend temps labels part, emitted.inputs, given ++ emitted.passed⟩ := by
  have ops : (emitted.builder.extend temps labels part).ops.toList = emitted.ops.toList ++ part :=
    Builder.toList_ops_extend _ _ _ _
  have fresh : ∀ label, label ∈ placed part ↔ emitted.builder.labels ≤ label.number.toNat ∧
      label.number.toNat < emitted.builder.labels + labels := fun label =>
    takes.places.mem_iff.trans (Builder.mem_freshLabels_iff labelRoom)
  refine ⟨?_, ?_, ?_, ?_, ?_, ?_⟩
  · rw [Emitted.ops, ops]
    exact sound.leads.append takes.leads
  · rw [Emitted.ops, ops, placed_append, List.nodup_append]
    refine ⟨sound.distinct, takes.places.nodup_iff.2 (Builder.nodup_freshLabels labelRoom), ?_⟩
    rintro label old other new rfl
    have below := (sound.placed_iff label).1 old
    have above := ((fresh label).1 new).1
    omega
  · intro label
    rw [Emitted.ops, ops, placed_append, List.mem_append, sound.placed_iff, fresh]
    change _ ↔ label.number.toNat < emitted.builder.labels + labels
    omega
  · rw [Emitted.ops, ops]
    exact (sound.settled.mono (List.subset_append_right _ _)).append sound.leads
      (takes.settled.mono (List.subset_append_left _ _))
  · intro input member
    exact Nat.lt_of_lt_of_le (sound.inputs_lt input member) (Nat.le_add_right _ _)
  · rw [Emitted.ops, ops]
    intro op member temp writes
    change temp.number.toNat < emitted.builder.temps + temps ∧ temp ∉ emitted.inputs
    rcases List.mem_append.1 member with old | new
    · obtain ⟨below, others⟩ := sound.written op old temp writes
      exact ⟨Nat.lt_of_lt_of_le below (Nat.le_add_right _ _), others⟩
    · obtain ⟨above, below⟩ := Builder.mem_freshTemps tempRoom (takes.writes op new temp writes)
      exact ⟨below, fun input => Nat.not_lt_of_le above (sound.inputs_lt temp input)⟩

theorem Sound.input (sound : emitted.Sound)
    (tempRoom : emitted.builder.temps + 1 ≤ UInt16.size)
    (labelRoom : emitted.builder.labels ≤ UInt16.size) : (emitted.append .input).Sound := by
  have nothing : emitted.builder.Takes 1 0 [] [] :=
    ⟨trivial, List.Perm.refl _, trivial, fun _ member => nomatch member⟩
  have number : (emitted.builder.freshTemp 0).number.toNat = emitted.builder.temps :=
    Builder.toNat_freshTemp tempRoom
  have extended := sound.extend nothing tempRoom labelRoom
  refine ⟨extended.leads, extended.distinct, extended.placed_iff, extended.settled, ?_, ?_⟩
  · intro input member
    rcases List.mem_cons.1 member with rfl | older
    · exact Nat.lt_succ_of_le (Nat.le_of_eq number)
    · exact extended.inputs_lt input older
  · intro op member temp writes
    obtain ⟨below, others⟩ := extended.written op member temp writes
    refine ⟨below, fun input => ?_⟩
    rcases List.mem_cons.1 input with rfl | older
    · -- nothing was appended, so that all registers written are older than the new one
      have same : (emitted.append .input).ops.toList = emitted.ops.toList :=
        (Builder.toList_ops_extend _ _ _ _).trans (List.append_nil _)
      rw [same] at member
      have older := (sound.written op member _ writes).1
      exact absurd older (Nat.not_lt_of_le (Nat.le_of_eq number.symm))
    · exact others older

theorem Sound.push (sound : emitted.Sound) (ctx : Context) (registry : Registry) (ret : GuestAddr)
    (tempRoom : (emitted.builder.emitPush ctx registry ret).state.2.temps ≤ UInt16.size)
    (labelRoom : (emitted.builder.emitPush ctx registry ret).state.2.labels ≤ UInt16.size) :
    Sound { emitted with builder := (emitted.builder.emitPush ctx registry ret).state.2 } := by
  unfold Builder.emitPush at tempRoom labelRoom ⊢
  dsimp only [Outcome.state_within] at tempRoom labelRoom ⊢
  cases prepared : (ctx.prepare registry ret).value with
  | error exhausted => exact sound
  | ok site =>
    rw [prepared] at tempRoom labelRoom
    unfold Builder.appendPush at tempRoom labelRoom ⊢
    cases policy : ctx.shadow.policy with
    | reset =>
      rw [policy] at tempRoom labelRoom
      exact sound.extend (emitted.builder.takes_pushReset site) tempRoom labelRoom
    | wrap =>
      rw [policy] at tempRoom labelRoom
      exact sound.extend (emitted.builder.takes_pushWrap _ site) tempRoom labelRoom

theorem Sound.pop (sound : emitted.Sound) (ctx : Context) (actual : Temp)
    (tempRoom : (emitted.builder.emitPop ctx actual).temps ≤ UInt16.size)
    (labelRoom : (emitted.builder.emitPop ctx actual).labels ≤ UInt16.size) :
    Sound ⟨emitted.builder.emitPop ctx actual, emitted.inputs, actual :: emitted.passed⟩ := by
  unfold Builder.emitPop at tempRoom labelRoom ⊢
  cases policy : ctx.shadow.policy with
  | reset =>
    rw [policy] at tempRoom labelRoom
    exact sound.extend (emitted.builder.takes_popReset actual) tempRoom labelRoom
  | wrap =>
    rw [policy] at tempRoom labelRoom
    exact sound.extend (Builder.takes_popWrap labelRoom _ actual) tempRoom labelRoom

/-- Counters do not go back. -/
theorem le_append (emitted : Emitted) (emission : Emission) :
    emitted.builder.temps ≤ (emitted.append emission).builder.temps ∧
      emitted.builder.labels ≤ (emitted.append emission).builder.labels := by
  cases emission with
  | input => exact ⟨Nat.le_add_right _ _, Nat.le_add_right _ _⟩
  | push ctx registry ret =>
    unfold append Builder.emitPush
    dsimp only [Outcome.state_within]
    split
    · exact ⟨Nat.le_refl _, Nat.le_refl _⟩
    · exact Draft.le_appendPush _ _ _ _
  | pop ctx actual => exact Draft.le_emitPop _ ctx actual
  | lookup target => exact ⟨Nat.le_add_right _ _, Nat.le_add_right _ _⟩
  | flush => exact ⟨Nat.le_add_right _ _, Nat.le_add_right _ _⟩

theorem Sound.append (sound : emitted.Sound) (emission : Emission)
    (tempRoom : (emitted.append emission).builder.temps ≤ UInt16.size)
    (labelRoom : (emitted.append emission).builder.labels ≤ UInt16.size) :
    (emitted.append emission).Sound := by
  cases emission with
  | input => exact sound.input tempRoom labelRoom
  | push ctx registry ret => exact sound.push ctx registry ret tempRoom labelRoom
  | pop ctx actual => exact sound.pop ctx actual tempRoom labelRoom
  | lookup target => exact sound.extend (emitted.builder.takes_lookup target) tempRoom labelRoom
  | flush => exact sound.extend emitted.builder.takes_flush tempRoom labelRoom

theorem le_appendAll (emitted : Emitted) (emissions : List Emission) :
    emitted.builder.temps ≤ (emitted.appendAll emissions).builder.temps ∧
      emitted.builder.labels ≤ (emitted.appendAll emissions).builder.labels := by
  induction emissions generalizing emitted with
  | nil => exact ⟨Nat.le_refl _, Nat.le_refl _⟩
  | cons emission emissions ih =>
    obtain ⟨temps, labels⟩ := emitted.le_append emission
    obtain ⟨moreTemps, moreLabels⟩ := ih (emitted.append emission)
    exact ⟨Nat.le_trans temps moreTemps, Nat.le_trans labels moreLabels⟩

/-- Appending goes on being sound as long as the counters have room. -/
theorem Sound.appendAll (sound : emitted.Sound) (emissions : List Emission)
    (tempRoom : (emitted.appendAll emissions).builder.temps ≤ UInt16.size)
    (labelRoom : (emitted.appendAll emissions).builder.labels ≤ UInt16.size) :
    (emitted.appendAll emissions).Sound := by
  induction emissions generalizing emitted with
  | nil => exact sound
  | cons emission emissions ih =>
    obtain ⟨temps, labels⟩ := (emitted.append emission).le_appendAll emissions
    have next := sound.append emission (Nat.le_trans temps tempRoom)
      (Nat.le_trans labels labelRoom)
    exact ih next tempRoom labelRoom

end Emitted

/-- However a block is built, if the counters of the builder do not wrap around: each label that was
given out, and no other, is placed, once, and behind all branches to it; on every control path each
register is written before it is read, unless it was passed to one of the calls; and the registers
that are written have been given out, but not to the caller.

Running any list in which each branch leads forward, to a label with one place, executes no position
twice, and is not cut off if the list is within the bound. -/
theorem emit_wellFormed (emissions : List Emission)
    (temps : (emit emissions).builder.temps ≤ UInt16.size)
    (labels : (emit emissions).builder.labels ≤ UInt16.size) :
    let block := emit emissions
    ((placed block.ops.toList).Nodup ∧
      (∀ label, label ∈ placed block.ops.toList ↔ label.number.toNat < block.builder.labels) ∧
      BranchesForward block.ops) ∧
    WrittenFirst block.ops block.passed 0 ∧
    (∀ op ∈ block.ops, ∀ temp, op.writes? = some temp →
      temp.number.toNat < block.builder.temps ∧ temp ∉ block.inputs) ∧
    ∀ ops : Array Op, BranchesForward ops → ∀ machine : Machine,
      (machine.visits ops).Pairwise (· < ·) ∧
        (ops.size ≤ stepBound → (machine.run ops).1 ≠ .error .noExit) := by
  intro block
  have sound : block.Sound := Emitted.sound_empty.appendAll emissions temps labels
  refine ⟨⟨sound.distinct, sound.placed_iff, ?_⟩, ?_, ?_, ?_⟩
  · exact sound.leads.branchesForward sound.distinct
  · exact sound.settled.writtenFirst sound.leads sound.distinct
  · exact fun op member => sound.written op (Array.mem_toList_iff.2 member)
  · intro ops forward machine
    exact ⟨forward.visits_increase machine, fun short => forward.run_ne_noExit short machine⟩

/-- A call and a return, a jump to where it returned to, and a flush, for a ring with room for one
frame. -/
def everyEmission : List Emission :=
  [.input, .push Machine.onRing.ctx .empty ⟨16⟩, .pop Machine.onRing.ctx ⟨0⟩, .lookup ⟨0⟩, .flush]

/-- The block has 39 operations, among them the places of five labels. -/
theorem emit_wellFormed_everyEmission :
    let block := emit everyEmission
    block.builder.temps ≤ UInt16.size ∧ block.builder.labels ≤ UInt16.size ∧
      block.ops.size = 39 ∧ block.builder.labels = 5 ∧
      block.passed = [⟨0⟩, ⟨0⟩] ∧ block.inputs = [⟨0⟩] ∧
      BranchesForward block.ops ∧ WrittenFirst block.ops block.passed 0 ∧
      ∀ machine : Machine, (machine.visits block.ops).Pairwise (· < ·) ∧
        (machine.run block.ops).1 ≠ .error .noExit := by
  intro block
  have temps : block.builder.temps ≤ UInt16.size := by decide
  have labels : block.builder.labels ≤ UInt16.size := by decide
  have short : block.ops.size ≤ stepBound := by decide
  obtain ⟨⟨-, -, forward⟩, first, -, general⟩ := emit_wellFormed everyEmission temps labels
  refine ⟨temps, labels, rfl, rfl, rfl, rfl, forward, first, fun machine => ?_⟩
  obtain ⟨increase, ends⟩ := general block.ops forward machine
  exact ⟨increase, ends short⟩

end TransferCache.Code
