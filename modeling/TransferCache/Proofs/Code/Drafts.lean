import TransferCache.Proofs.Code.Direct

/-!
# Blocks under construction

A draft is a builder together with what has been appended to it: the registers given out for actual
addresses and targets, and the protocols lowered so far. Appending one more protocol keeps what the
others do (`Draft.Faithful.extend`), because its registers and labels are fresh and no branch leads
out of a part.

* `Draft.Built.faithful`: reading the operations of a draft is performing its protocols.
* `Draft.Built.run`: so is running them, within the bounds of builders and runs.
-/

namespace TransferCache.Code

/-! ## Fresh registers and labels -/

namespace Builder

variable {builder : Builder} {offset count : Nat}

/-- The next registers that a builder gives out. -/
def freshTemps (builder : Builder) (count : Nat) : List Temp :=
  (List.range count).map builder.freshTemp

/-- The next labels that a builder gives out. -/
def freshLabels (builder : Builder) (count : Nat) : List Label :=
  (List.range count).map builder.freshLabel

theorem toNat_freshTemp (room : builder.temps + offset < UInt16.size) :
    (builder.freshTemp offset).number.toNat = builder.temps + offset :=
  Nat.mod_eq_of_lt room

theorem toNat_freshLabel (room : builder.labels + offset < UInt16.size) :
    (builder.freshLabel offset).number.toNat = builder.labels + offset :=
  Nat.mod_eq_of_lt room

theorem nodup_freshTemps (room : builder.temps + count ≤ UInt16.size) :
    (builder.freshTemps count).Nodup := by
  apply (List.nodup_map_iff_inj_on List.nodup_range).2
  intro early earlyBelow late lateBelow same
  have earlyRoom := List.mem_range.1 earlyBelow
  have lateRoom := List.mem_range.1 lateBelow
  have numbers := congrArg (fun temp : Temp => temp.number.toNat) same
  rw [toNat_freshTemp (by omega), toNat_freshTemp (by omega)] at numbers
  omega

theorem nodup_freshLabels (room : builder.labels + count ≤ UInt16.size) :
    (builder.freshLabels count).Nodup := by
  apply (List.nodup_map_iff_inj_on List.nodup_range).2
  intro early earlyBelow late lateBelow same
  have earlyRoom := List.mem_range.1 earlyBelow
  have lateRoom := List.mem_range.1 lateBelow
  have numbers := congrArg (fun label : Label => label.number.toNat) same
  rw [toNat_freshLabel (by omega), toNat_freshLabel (by omega)] at numbers
  omega

/-- Registers that were given out before, and those to be given out later, are not among the next
ones. -/
theorem not_mem_freshTemps (room : builder.temps + count ≤ UInt16.size) {temp : Temp}
    (elsewhere : temp.number.toNat < builder.temps ∨
      builder.temps + count ≤ temp.number.toNat) : temp ∉ builder.freshTemps count := by
  intro member
  obtain ⟨offset, below, rfl⟩ := List.mem_map.1 member
  have inside := List.mem_range.1 below
  rw [toNat_freshTemp (by omega)] at elsewhere
  omega

theorem mem_freshLabels (room : builder.labels + count ≤ UInt16.size) {label : Label}
    (member : label ∈ builder.freshLabels count) :
    builder.labels ≤ label.number.toNat ∧ label.number.toNat < builder.labels + count := by
  obtain ⟨offset, below, rfl⟩ := List.mem_map.1 member
  have inside := List.mem_range.1 below
  rw [toNat_freshLabel (by omega)]
  omega

end Builder

/-! ## Drafts -/

/-- A builder, the registers given out for addresses, and the protocols lowered so far. -/
structure Draft where
  builder : Builder
  inputs : List Temp
  calls : List DirectCall

namespace Draft

def empty : Draft := ⟨.empty, [], []⟩

/-- Gives out a register for an address. -/
def newInput (draft : Draft) : Draft :=
  { draft with
    builder := draft.builder.newTemp.2
    inputs := draft.builder.newTemp.1 :: draft.inputs }

/-- Puts a builder in place to which one more protocol has been appended. -/
def appended (draft : Draft) (builder : Builder) (call : DirectCall) : Draft :=
  ⟨builder, draft.inputs, draft.calls ++ [call]⟩

/-- The drafts that emitting to contexts of one policy and capacity can produce. -/
inductive Built (policy : OverflowPolicy) (capacity : Nat) : Draft → Prop
  | empty : Built policy capacity .empty
  | newInput {draft : Draft} (built : Built policy capacity draft) :
      Built policy capacity draft.newInput
  | push {draft : Draft} (built : Built policy capacity draft) (site : CallSite) :
      Built policy capacity
        (draft.appended (draft.builder.appendPush policy capacity site) (.push site))
  | pop {draft : Draft} (built : Built policy capacity draft) {ctx : Context}
      (shaped : Shaped policy capacity ctx) {actual : Temp} (input : actual ∈ draft.inputs) :
      Built policy capacity (draft.appended (draft.builder.emitPop ctx actual) (.pop actual))
  | flush {draft : Draft} (built : Built policy capacity draft) :
      Built policy capacity (draft.appended draft.builder.emitFlush .flush)
  | lookup {draft : Draft} (built : Built policy capacity draft) {target : Temp}
      (input : target ∈ draft.inputs) :
      Built policy capacity (draft.appended (draft.builder.emitLookup target) (.lookup target))

/-- All inputs of the draft hold the given words. -/
def Supplied (draft : Draft) (machine : Machine) (word : Temp → UInt64) : Prop :=
  ∀ input ∈ draft.inputs, machine.temp? input = some (word input)

/-- The operations of a draft do, on contexts of one policy and capacity, what its protocols do, and
change no register that was an input or has not been given out. -/
structure Faithful (policy : OverflowPolicy) (capacity : Nat) (draft : Draft) : Prop where
  leads : LeadsForward draft.builder.ops.toList
  distinct : (placed draft.builder.ops.toList).Nodup
  labels_lt : ∀ label ∈ placed draft.builder.ops.toList,
    label.number.toNat < draft.builder.labels
  inputs_lt : ∀ input ∈ draft.inputs, input.number.toNat < draft.builder.temps
  reads : ∀ machine ctx word, machine.ctx = ctx.uncounted → Shaped policy capacity ctx →
    draft.Supplied machine word →
    ∃ after, forward none draft.builder.ops.toList machine =
        (.ok (directly word draft.calls ctx).1, after) ∧
      after.ctx = (directly word draft.calls ctx).2.uncounted ∧
      ∀ temp, temp ∈ draft.inputs ∨ draft.builder.temps ≤ temp.number.toNat →
        after.temp? temp = machine.temp? temp

variable {policy : OverflowPolicy} {capacity : Nat} {draft : Draft}

theorem faithful_empty : Faithful policy capacity .empty where
  leads := trivial
  distinct := List.nodup_nil
  labels_lt _ member := nomatch member
  inputs_lt _ member := nomatch member
  reads machine _ _ agrees _ _ := ⟨machine, rfl, agrees, fun _ _ => rfl⟩

theorem Faithful.newInput (faithful : draft.Faithful policy capacity)
    (room : draft.builder.temps + 1 ≤ UInt16.size) : draft.newInput.Faithful policy capacity := by
  have number : (draft.builder.freshTemp 0).number.toNat = draft.builder.temps :=
    Builder.toNat_freshTemp (by omega)
  have ops : draft.newInput.builder.ops.toList = draft.builder.ops.toList := by
    simp [Draft.newInput, Builder.newTemp]
  refine ⟨?_, ?_, ?_, ?_, ?_⟩
  · rw [ops]
    exact faithful.leads
  · rw [ops]
    exact faithful.distinct
  · rw [ops]
    exact faithful.labels_lt
  · intro input member
    change input.number.toNat < draft.builder.temps + 1
    rcases List.mem_cons.1 member with rfl | older
    · exact Nat.lt_succ_of_le (Nat.le_of_eq number)
    · exact Nat.lt_succ_of_lt (faithful.inputs_lt input older)
  · intro machine ctx word agrees shaped supplied
    rw [ops]
    obtain ⟨after, ran, state, kept⟩ := faithful.reads machine ctx word agrees shaped
      fun input member => supplied input (List.mem_cons_of_mem _ member)
    refine ⟨after, ran, state, ?_⟩
    rintro temp (member | beyond)
    · apply kept temp
      rcases List.mem_cons.1 member with rfl | older
      · exact Or.inr (Nat.le_of_eq number.symm)
      · exact Or.inl older
    · exact kept temp (Or.inr (Nat.le_of_succ_le beyond))

/-- A part whose registers and labels are fresh can be appended, if it does what a protocol does. -/
theorem Faithful.extend (faithful : draft.Faithful policy capacity) {temps labels : Nat}
    {part : List Op} {call : DirectCall} (labelRoom : draft.builder.labels + labels ≤ UInt16.size)
    (tempRoom : draft.builder.temps + temps ≤ UInt16.size) (partLeads : LeadsForward part)
    (partLabels : (placed part).Perm (draft.builder.freshLabels labels))
    (partReads : ∀ machine ctx word, machine.ctx = ctx.uncounted → Shaped policy capacity ctx →
      draft.Supplied machine word →
      ∃ after, forward none part machine =
          (.ok (.ofTarget? (call.perform word ctx).1), after) ∧
        after.ctx = (call.perform word ctx).2.uncounted ∧
        Machine.KeepsOutside (draft.builder.freshTemps temps) machine after) :
    (draft.appended (draft.builder.extend temps labels part) call).Faithful policy capacity := by
  have ops : (draft.appended (draft.builder.extend temps labels part) call).builder.ops.toList =
      draft.builder.ops.toList ++ part := Builder.toList_ops_extend _ _ _ _
  refine ⟨?_, ?_, ?_, ?_, ?_⟩
  · rw [ops]
    exact faithful.leads.append partLeads
  · rw [ops, placed_append, List.nodup_append]
    refine ⟨faithful.distinct, partLabels.nodup_iff.2 (Builder.nodup_freshLabels labelRoom), ?_⟩
    rintro label old other new rfl
    have below := faithful.labels_lt label old
    have above := (Builder.mem_freshLabels labelRoom (partLabels.mem_iff.1 new)).1
    omega
  · rw [ops, placed_append]
    intro label member
    change label.number.toNat < draft.builder.labels + labels
    rcases List.mem_append.1 member with old | new
    · exact Nat.lt_of_lt_of_le (faithful.labels_lt label old) (Nat.le_add_right _ _)
    · exact (Builder.mem_freshLabels labelRoom (partLabels.mem_iff.1 new)).2
  · intro input member
    exact Nat.lt_of_lt_of_le (faithful.inputs_lt input member) (Nat.le_add_right _ _)
  · intro machine ctx word agrees shaped supplied
    obtain ⟨middle, ran, state, kept⟩ := faithful.reads machine ctx word agrees shaped supplied
    have keptInputs : ∀ input ∈ draft.inputs, middle.temp? input = machine.temp? input :=
      fun input member => kept input (Or.inl member)
    rw [ops, forward_append faithful.leads, ran]
    change ∃ after : Machine, _ = (Except.ok (directly word (draft.calls ++ [call]) ctx).1, after) ∧
      after.ctx = (directly word (draft.calls ++ [call]) ctx).2.uncounted ∧ _
    have shapedMiddle := shaped.directly word draft.calls
    rw [directly_append]
    rcases reached : directly word draft.calls ctx with ⟨host | _, between⟩
    · rw [reached] at state
      refine ⟨middle, rfl, state, ?_⟩
      rintro temp (member | beyond)
      · exact keptInputs temp member
      · exact kept temp (Or.inr (Nat.le_trans (Nat.le_add_right _ _) beyond))
    · rw [reached] at state shapedMiddle
      obtain ⟨after, went, last, keptToo⟩ := partReads middle between word state shapedMiddle
        fun input member => (keptInputs input member).trans (supplied input member)
      dsimp only
      rw [directly_singleton]
      refine ⟨after, went, last, ?_⟩
      rintro temp (member | beyond)
      · rw [keptToo temp (Builder.not_mem_freshTemps tempRoom
          (Or.inl (faithful.inputs_lt temp member)))]
        exact keptInputs temp member
      · rw [keptToo temp (Builder.not_mem_freshTemps tempRoom (Or.inr beyond))]
        exact kept temp (Or.inr (Nat.le_trans (Nat.le_add_right _ _) beyond))

/-! ## Parts -/

theorem Faithful.push (faithful : draft.Faithful policy capacity) (site : CallSite)
    (tempRoom : (draft.builder.appendPush policy capacity site).temps ≤ UInt16.size)
    (labelRoom : (draft.builder.appendPush policy capacity site).labels ≤ UInt16.size) :
    (draft.appended (draft.builder.appendPush policy capacity site) (.push site)).Faithful policy
      capacity := by
  cases policy with
  | reset =>
    have apart : [draft.builder.freshTemp 0, draft.builder.freshTemp 1].Nodup :=
      Builder.nodup_freshTemps tempRoom
    have limitTop := (List.ne_of_not_mem_cons (List.nodup_cons.1 apart).1).symm
    refine faithful.extend labelRoom tempRoom ?_ (List.Perm.refl _) ?_
    · simp [advanceOps, restartOps, storeFrameOps, LeadsForward, placed, Op.target?, Op.place?]
    · intro machine ctx word agrees shaped _
      exact forward_pushReset agrees shaped.fits shaped.policy_eq limitTop _ site
  | wrap =>
    have apart := Builder.nodup_freshTemps tempRoom
    refine faithful.extend labelRoom tempRoom ?_ (List.Perm.refl _) ?_
    · simp [advanceOps, ringPushOps, storeFrameOps, LeadsForward, placed, Op.target?, Op.place?]
    · rintro machine ctx word agrees ⟨fits, policyEq, rfl⟩ _
      exact forward_pushWrap agrees fits policyEq apart _ _ site

/-- The register of an address is none of those that the part is given. -/
theorem Faithful.nodup_input (faithful : draft.Faithful policy capacity) {actual : Temp}
    (input : actual ∈ draft.inputs) {count : Nat}
    (room : draft.builder.temps + count ≤ UInt16.size) :
    (actual :: draft.builder.freshTemps count).Nodup := by
  refine List.nodup_cons.2 ⟨?_, Builder.nodup_freshTemps room⟩
  exact Builder.not_mem_freshTemps room (Or.inl (faithful.inputs_lt actual input))

theorem Faithful.pop (faithful : draft.Faithful policy capacity) {ctx : Context}
    (shaped : Shaped policy capacity ctx) {actual : Temp} (input : actual ∈ draft.inputs)
    (tempRoom : (draft.builder.emitPop ctx actual).temps ≤ UInt16.size)
    (labelRoom : (draft.builder.emitPop ctx actual).labels ≤ UInt16.size) :
    (draft.appended (draft.builder.emitPop ctx actual) (.pop actual)).Faithful policy
      capacity := by
  obtain ⟨-, rfl, rfl⟩ := shaped
  unfold Builder.emitPop at tempRoom labelRoom ⊢
  cases policy : ctx.shadow.policy with
  | reset =>
    rw [policy] at faithful tempRoom labelRoom
    have apart := faithful.nodup_input input tempRoom
    refine faithful.extend labelRoom tempRoom ?_ (List.Perm.refl _) ?_
    · simp [matchOps, takeFrameOps, leaveOps, LeadsForward, placed, Op.target?, Op.place?]
    · intro machine running word agrees shaped supplied
      exact forward_popReset agrees shaped.fits shaped.policy_eq apart (supplied actual input) _
  | wrap =>
    rw [policy] at faithful tempRoom labelRoom
    have apart := faithful.nodup_input input tempRoom
    have labelsApart : [draft.builder.freshLabel 0, draft.builder.freshLabel 1,
        draft.builder.freshLabel 2].Nodup := Builder.nodup_freshLabels labelRoom
    refine faithful.extend labelRoom tempRoom ?_ ?_ ?_
    · simp [matchOps, takeFrameOps, ringPopOps, leaveOps, LeadsForward, placed, Op.target?,
        Op.place?]
    · -- the first of the labels, the one for a miss, is placed last
      change ([draft.builder.freshLabel 1, draft.builder.freshLabel 2] ++
        [draft.builder.freshLabel 0]).Perm ([draft.builder.freshLabel 0] ++ _)
      exact List.perm_append_comm
    · intro machine running word agrees shaped supplied
      have unplaced := (List.nodup_cons.1 labelsApart).1
      rw [← shaped.capacity_eq]
      exact forward_popWrap agrees shaped.fits shaped.policy_eq apart (supplied actual input)
        unplaced

theorem Faithful.flush (faithful : draft.Faithful policy capacity)
    (tempRoom : draft.builder.temps ≤ UInt16.size)
    (labelRoom : draft.builder.labels ≤ UInt16.size) :
    (draft.appended draft.builder.emitFlush .flush).Faithful policy capacity := by
  refine faithful.extend labelRoom tempRoom ?_ (List.Perm.refl _) ?_
  · exact ⟨fun label names => (nomatch names), trivial⟩
  · intro machine ctx word agrees _ _
    refine ⟨(machine.perform Context.flushStack).2, forward_flushStack [] machine, ?_,
      Machine.KeepsOutside.refl _ machine⟩
    change machine.ctx.flushStack.state = ctx.flushStack.state.uncounted
    rw [agrees, Context.flushStack_uncounted]
    rfl

theorem Faithful.lookup (faithful : draft.Faithful policy capacity) {target : Temp}
    (input : target ∈ draft.inputs) (tempRoom : draft.builder.temps + 1 ≤ UInt16.size)
    (labelRoom : draft.builder.labels ≤ UInt16.size) :
    (draft.appended (draft.builder.emitLookup target) (.lookup target)).Faithful policy
      capacity := by
  refine faithful.extend labelRoom tempRoom ?_ (List.Perm.refl _) ?_
  · exact ⟨fun label names => (nomatch names), fun label names => (nomatch names), trivial⟩
  · intro machine ctx word agrees _ supplied
    have looked : machine.ctx.lookupTarget ⟨word target⟩ =
        (ctx.lookupTarget ⟨word target⟩).within Context.uncounted := by
      rw [agrees, Context.lookupTarget_uncounted]
    refine ⟨(machine.perform (·.lookupTarget ⟨word target⟩)).2.bind (draft.builder.freshTemp 0)
      (machine.ctx.lookupTarget ⟨word target⟩).value.word, ?_, congrArg Outcome.state looked, ?_⟩
    · rw [forward_lookupTarget (supplied target input),
        forward_leave (Machine.temp?_bind_self ..), looked]
      rfl
    · have kept := Machine.KeepsOutside.refl (draft.builder.freshTemps 1) machine
      exact kept.bind List.mem_cons_self _

/-! ## Every draft within bounds -/

theorem le_appendPush (builder : Builder) (policy : OverflowPolicy) (capacity : Nat)
    (site : CallSite) :
    builder.temps ≤ (builder.appendPush policy capacity site).temps ∧
      builder.labels ≤ (builder.appendPush policy capacity site).labels := by
  cases policy <;> exact ⟨Nat.le_add_right _ _, Nat.le_add_right _ _⟩

theorem le_emitPop (builder : Builder) (ctx : Context) (actual : Temp) :
    builder.temps ≤ (builder.emitPop ctx actual).temps ∧
      builder.labels ≤ (builder.emitPop ctx actual).labels := by
  unfold Builder.emitPop
  cases ctx.shadow.policy <;> exact ⟨Nat.le_add_right _ _, Nat.le_add_right _ _⟩

/-- Reading the operations of a draft is performing its protocols, as long as the numbers of its
registers and labels do not wrap around. -/
theorem Built.faithful (built : Built policy capacity draft)
    (temps : draft.builder.temps ≤ UInt16.size) (labels : draft.builder.labels ≤ UInt16.size) :
    draft.Faithful policy capacity := by
  induction built with
  | empty => exact faithful_empty
  | newInput _ ih => exact (ih (Nat.le_of_succ_le temps) labels).newInput temps
  | @push draft _ site ih =>
    obtain ⟨moreTemps, moreLabels⟩ := le_appendPush draft.builder policy capacity site
    have faithful := ih (Nat.le_trans moreTemps temps) (Nat.le_trans moreLabels labels)
    exact faithful.push site temps labels
  | @pop draft _ ctx shaped actual input ih =>
    obtain ⟨moreTemps, moreLabels⟩ := le_emitPop draft.builder ctx actual
    have faithful := ih (Nat.le_trans moreTemps temps) (Nat.le_trans moreLabels labels)
    exact faithful.pop shaped input temps labels
  | flush _ ih => exact (ih temps labels).flush temps labels
  | lookup _ input ih => exact (ih (Nat.le_of_succ_le temps) labels).lookup input temps labels

/-- Running the operations of a draft, within the bounds of builders and runs, is performing its
protocols. It never faults. -/
theorem Built.run (built : Built policy capacity draft)
    (temps : draft.builder.temps ≤ UInt16.size) (labels : draft.builder.labels ≤ UInt16.size)
    (short : draft.builder.ops.size ≤ stepBound) {machine : Machine} {ctx : Context}
    {word : Temp → UInt64} (agrees : machine.ctx = ctx.uncounted)
    (shaped : Shaped policy capacity ctx) (supplied : draft.Supplied machine word) :
    (machine.run draft.builder.ops).1 = .ok (directly word draft.calls ctx).1 ∧
      (machine.run draft.builder.ops).2.ctx = (directly word draft.calls ctx).2.uncounted := by
  have faithful := built.faithful temps labels
  obtain ⟨after, ran, state, -⟩ := faithful.reads machine ctx word agrees shaped supplied
  rw [run_eq_forward faithful.distinct faithful.leads short, ran]
  exact ⟨rfl, state⟩

end Draft

end TransferCache.Code
