import TransferCache.Proofs.Code.Throughout
import TransferCache.Proofs.Code.Uncounted
import TransferCache.Proofs.Shadow.Exact

/-!
# Sums that do not wrap around

Operations add modulo the word size. Pushes step the top up by one and count a frame, pops step the
top down and count one less, and nothing else that protocols emit adds. On a stack whose limit is a
word none of these additions wraps around: a push steps to an index up to the limit and counts up to
the capacity, and a pop only gets to its additions if the top is not the base, so that at least one
frame is counted.

* `throughout_pushReset`, `throughout_pushWrap`, `throughout_popReset`, `throughout_popWrap`: the
  additions of each protocol are exact.
* `Draft.Built.addsExactly`: so are those of every emitted block.
-/

namespace TransferCache.Code

open Machine (temp?_bind_self temp?_bind_ne)

/-! ## Additions -/

/-- An addition yields the sum itself and not only what is left of it modulo the word size. Other
operations do not add. -/
def Machine.AddsExactly (machine : Machine) : Op → Prop
  | .addConstant _ src addend =>
    ∃ word, machine.temp? src = some word ∧
      ((word + addend.toUInt64).toNat : Int) = word.toNat + addend.toInt
  | _ => True

section

variable {machine : Machine} {stack : ShadowStack} {ops : List Op} {count : Nat}
  {src dst actual top limit expected slot host live : Temp}

theorem addsExactly_one (held : machine.temp? src = some count.toUInt64)
    (fits : count + 1 < UInt64.size) (dst : Temp) :
    machine.AddsExactly (.addConstant dst src 1) := by
  refine ⟨_, held, ?_⟩
  have added : count.toUInt64 + (1 : Int64).toUInt64 = (count + 1).toUInt64 := toUInt64_add_one _
  rw [added, toNat_toUInt64 fits, toNat_toUInt64 (Nat.lt_of_succ_lt fits)]
  rfl

theorem addsExactly_neg_one (held : machine.temp? src = some count.toUInt64)
    (fits : count < UInt64.size) (positive : 0 < count) (dst : Temp) :
    machine.AddsExactly (.addConstant dst src (-1)) := by
  refine ⟨_, held, ?_⟩
  have below : ((-1 : Int64).toInt) = -1 := by decide
  rw [toUInt64_sub_one positive, toNat_toUInt64 (by omega), toNat_toUInt64 fits, below]
  omega

/-! ## One operation -/

variable {meets : Machine → Op → Prop}

theorem throughout_loadField {field : StackField} (met : meets machine (.loadField dst field))
    (later : Throughout meets none ops
      (machine.bind dst (Machine.loadField machine.ctx.shadow field))) :
    Throughout meets none (.loadField dst field :: ops) machine :=
  (throughout_of_target?_eq_none rfl).2 ⟨met, later⟩

/-- Whatever is loaded, only one register changes. -/
theorem throughout_loadEntry {index : Temp} {part : FramePart}
    (met : meets machine (.loadEntry dst index part))
    (later : ∀ word, Throughout meets none ops (machine.bind dst word)) :
    Throughout meets none (.loadEntry dst index part :: ops) machine := by
  refine throughout_cons rfl met fun flow after stepped => ?_
  obtain ⟨position, -, rest⟩ := exists_of_bind_eq_ok stepped
  obtain ⟨frame, -, ran⟩ := exists_of_bind_eq_ok rest
  cases ran
  exact later _

theorem throughout_loadSlot (met : meets machine (.loadSlot dst slot))
    (later : ∀ word, Throughout meets none ops (machine.bind dst word)) :
    Throughout meets none (.loadSlot dst slot :: ops) machine := by
  refine throughout_cons rfl met fun flow after stepped => ?_
  obtain ⟨number, -, ran⟩ := exists_of_bind_eq_ok stepped
  cases ran
  exact later _

theorem throughout_addConstant {word : UInt64} {addend : Int64}
    (held : machine.temp? src = some word) (met : meets machine (.addConstant dst src addend))
    (later : Throughout meets none ops (machine.bind dst (word + addend.toUInt64))) :
    Throughout meets none (.addConstant dst src addend :: ops) machine := by
  refine throughout_cons rfl met fun flow after stepped => ?_
  obtain ⟨read, found, ran⟩ := exists_of_bind_eq_ok stepped
  cases (Machine.read_eq_ok held).symm.trans found
  cases ran
  exact later

/-! ## Pushes -/

/-- A push steps past the top exactly: the limit is a word. -/
theorem throughout_advanceOps (onStack : machine.ctx.shadow = stack) (fits : Addressable stack)
    (apart : limit ≠ top) {inRange : Label}
    (rest : ∀ skipping ∈ [none, some inRange], ∀ moved : Machine, moved.ctx.shadow = stack →
      Throughout Machine.AddsExactly skipping ops moved) :
    Throughout Machine.AddsExactly none (advanceOps top limit inRange ++ ops) machine := by
  subst onStack
  have bounded := fits.wf.top_le
  have limitEq := fits.wf.limit_eq
  have words := fits.limit_lt
  refine throughout_loadField trivial (throughout_loadField trivial ?_)
  have heldTop : ((machine.bind top machine.ctx.shadow.top.toUInt64).bind limit
      machine.ctx.shadow.limit.toUInt64).temp? top = some machine.ctx.shadow.top.toUInt64 := by
    rw [temp?_bind_ne _ apart, temp?_bind_self]
  refine throughout_addConstant heldTop (addsExactly_one heldTop (by omega) top) ?_
  exact throughout_branch trivial (rest _ (by simp) _ rfl) fun _ => rest _ (by simp) _ rfl

/-- A push on a ring counts exactly: a full ring is counted as if the oldest frame were gone. -/
theorem throughout_skip_ringPushOps (onStack : machine.ctx.shadow = stack)
    (fits : Addressable stack) (ring : stack.policy = .wrap) (top live : Temp)
    (inRange notFull : Label)
    (rest : ∀ counted : Machine, Throughout Machine.AddsExactly none ops counted) :
    Throughout Machine.AddsExactly (some inRange)
      (ringPushOps stack.capacity top live inRange notFull ++ ops) machine := by
  subst onStack
  have count : machine.ctx.shadow.live = machine.ctx.shadow.ringLive :=
    ShadowStack.live_of_wrap ring
  have bounded := fits.wf.live_le
  have room := fits.wf.capacity_pos
  have limitEq := fits.wf.limit_eq
  have words := fits.limit_lt
  refine (throughout_skip (by simp [Op.place?])).2 (throughout_place.2 ?_)
  refine throughout_loadField trivial ?_
  have heldLive : (machine.bind live machine.ctx.shadow.live.toUInt64).temp? live =
      some machine.ctx.shadow.ringLive.toUInt64 := by rw [temp?_bind_self, count]
  refine throughout_branch trivial ?_ fun _ => ?_
  · refine (throughout_skip (by simp [Op.place?])).2 ((throughout_skip (by simp [Op.place?])).2 ?_)
    refine throughout_place.2 (throughout_addConstant heldLive ?_ (rest _))
    exact addsExactly_one heldLive (by omega) live
  · refine (throughout_of_target?_eq_none rfl).2 ⟨trivial, ?_⟩
    refine (throughout_of_target?_eq_none rfl).2 ⟨trivial, ?_⟩
    refine (throughout_of_target?_eq_none rfl).2 ⟨trivial, ?_⟩
    have restored := temp?_bind_self
      ((machine.bind live machine.ctx.shadow.live.toUInt64).perform Context.noteOverflow).2 live
      (machine.ctx.shadow.capacity - 1).toUInt64
    exact throughout_addConstant restored (addsExactly_one restored (by omega) live) (rest _)

theorem throughout_pushReset (onStack : machine.ctx.shadow = stack) (fits : Addressable stack)
    (apart : limit ≠ top) (inRange : Label) (site : CallSite) :
    Throughout Machine.AddsExactly none
      (advanceOps top limit inRange ++ restartOps top inRange ++ storeFrameOps top site)
      machine := by
  rw [List.append_assoc]
  refine throughout_advanceOps onStack fits apart fun skipping _ moved _ => ?_
  refine throughout_of_forall ?_ skipping moved
  simp [restartOps, storeFrameOps, Machine.AddsExactly]

theorem throughout_pushWrap (onStack : machine.ctx.shadow = stack) (fits : Addressable stack)
    (policy : stack.policy = .wrap) (apart : limit ≠ top) (inRange notFull : Label)
    (site : CallSite) :
    Throughout Machine.AddsExactly none
      (advanceOps top limit inRange ++ ringPushOps stack.capacity top live inRange notFull ++
        storeFrameOps top site ++ [.storeField .live live]) machine := by
  have counts : ∀ moved : Machine, moved.ctx.shadow = stack →
      Throughout Machine.AddsExactly (some inRange)
        (ringPushOps stack.capacity top live inRange notFull ++
          (storeFrameOps top site ++ [.storeField .live live])) moved := by
    intro moved onStack
    refine throughout_skip_ringPushOps onStack fits policy top live inRange notFull ?_
    refine throughout_of_forall ?_ none
    simp [storeFrameOps, Machine.AddsExactly]
  rw [List.append_assoc, List.append_assoc]
  refine throughout_advanceOps onStack fits apart fun skipping chosen moved onStack => ?_
  rcases List.mem_pair.1 chosen with rfl | rfl
  · -- once the wrapped top is in its register, the count is read as after a skip
    have skipped := counts (moved.bind top 1) onStack
    have started := (throughout_skip (by simp [Op.place?])).1 skipped
    exact ⟨trivial, trivial, throughout_place.1 started⟩
  · exact counts moved onStack

/-! ## Pops -/

/-- A top that is not the base is above zero. -/
theorem top_ne_zero_of_passed (held : machine.temp? top = some stack.top.toUInt64)
    (fits : Addressable stack) (passed : machine.taken .eq top (.constant 0) = .ok false) :
    stack.top ≠ 0 := by
  have decided : machine.taken .eq top (.constant 0) =
      .ok (Condition.eq.holds stack.top.toUInt64 0) := by
    unfold Machine.taken
    rw [Machine.read_eq_ok held]
    rfl
  have fails := Except.ok.inj (decided.symm.trans passed)
  rw [holds_eq_zero fits.top_lt] at fails
  exact of_decide_eq_false fails

/-- A pop steps below the top exactly, for whatever operations go on from there: they are reached
only if the top is not the base. -/
theorem throughout_pop (onStack : machine.ctx.shadow = stack) (fits : Addressable stack)
    (apart : [top, expected, slot, host].Nodup) {miss : Label} {stepOps : List Op}
    (unplaced : miss ∉ placed stepOps)
    (steps : ∀ taken : Machine, taken.ctx.shadow = stack → stack.top ≠ 0 →
      Throughout Machine.AddsExactly none (stepOps ++ leaveOps host miss) taken) :
    Throughout Machine.AddsExactly none
      (matchOps actual top expected miss ++ takeFrameOps top slot host ++ stepOps ++
        leaveOps host miss) machine := by
  obtain ⟨⟨topExpected, topSlot, topHost⟩, -⟩ :
      (top ≠ expected ∧ top ≠ slot ∧ top ≠ host) ∧ [expected, slot, host].Nodup := by
    simpa using apart
  have missed : ∀ compared : Machine, Throughout Machine.AddsExactly (some miss)
      (takeFrameOps top slot host ++ (stepOps ++ leaveOps host miss)) compared := by
    intro compared
    have plain : miss ∉ placed (takeFrameOps top slot host) := List.not_mem_nil
    refine throughout_skip_append plain (throughout_skip_append unplaced ?_)
    refine throughout_of_forall ?_ (some miss) compared
    simp [leaveOps, Machine.AddsExactly]
  rw [List.append_assoc, List.append_assoc]
  subst onStack
  refine throughout_loadField trivial ?_
  have heldTop := temp?_bind_self machine top machine.ctx.shadow.top.toUInt64
  refine throughout_branch trivial ?_ fun passed => ?_
  · exact (throughout_skip (by simp [Op.place?])).2
      ((throughout_skip (by simp [Op.place?])).2 (missed _))
  have busy := top_ne_zero_of_passed heldTop fits passed
  refine throughout_loadEntry trivial fun guest => throughout_branch trivial (missed _) fun _ => ?_
  refine throughout_loadEntry trivial fun number => throughout_loadSlot trivial fun code => ?_
  have heldStill : ((((machine.bind top machine.ctx.shadow.top.toUInt64).bind expected guest).bind
      slot number).bind host code).temp? top = some machine.ctx.shadow.top.toUInt64 := by
    rw [temp?_bind_ne _ topHost.symm, temp?_bind_ne _ topSlot.symm,
      temp?_bind_ne _ topExpected.symm]
    exact heldTop
  have below := addsExactly_neg_one heldStill fits.top_lt (Nat.pos_of_ne_zero busy) top
  exact throughout_addConstant heldStill below (steps _ rfl busy)

theorem throughout_popReset (onStack : machine.ctx.shadow = stack) (fits : Addressable stack)
    (apart : [top, expected, slot, host].Nodup) (miss : Label) :
    Throughout Machine.AddsExactly none
      (matchOps actual top expected miss ++ takeFrameOps top slot host ++ [.storeField .top top] ++
        leaveOps host miss) machine := by
  refine throughout_pop onStack fits apart List.not_mem_nil fun taken _ _ => ?_
  refine throughout_of_forall ?_ none taken
  simp [leaveOps, Machine.AddsExactly]

/-- While the top is not the base a ring counts at least one frame. -/
theorem throughout_popWrap (onStack : machine.ctx.shadow = stack) (fits : Addressable stack)
    (policy : stack.policy = .wrap) (apart : [top, expected, slot, host].Nodup)
    {miss stepped stored : Label} (unplaced : miss ∉ [stepped, stored]) :
    Throughout Machine.AddsExactly none
      (matchOps actual top expected miss ++ takeFrameOps top slot host ++
        ringPopOps stack.capacity top live stepped stored ++ leaveOps host miss) machine := by
  refine throughout_pop onStack fits apart unplaced fun taken onStack busy => ?_
  subst onStack
  have count : taken.ctx.shadow.live = taken.ctx.shadow.ringLive :=
    ShadowStack.live_of_wrap policy
  have bounded := fits.wf.live_le
  have words := fits.capacity_lt
  have populated : 0 < taken.ctx.shadow.live :=
    Nat.pos_of_ne_zero fun none => busy (fits.wf.top_eq_zero_iff.2 none)
  refine throughout_loadField trivial ?_
  have heldLive := temp?_bind_self taken live taken.ctx.shadow.live.toUInt64
  have below := addsExactly_neg_one heldLive (by omega) populated live
  refine throughout_addConstant heldLive below ?_
  refine throughout_of_forall ?_ none _
  simp [leaveOps, Machine.AddsExactly]

end

/-! ## Blocks -/

namespace Draft

variable {policy : OverflowPolicy} {capacity : Nat} {draft : Draft}

/-- On contexts of one policy and capacity, every addition that the draft executes is exact. -/
structure AddsExactly (policy : OverflowPolicy) (capacity : Nat) (draft : Draft) : Prop where
  throughout : ∀ machine word, Shaped policy capacity machine.ctx → draft.Supplied machine word →
    Throughout Machine.AddsExactly none draft.builder.ops.toList machine

/-- A part may be appended if it adds exactly on all contexts of the shape. -/
theorem AddsExactly.extend (exact : draft.AddsExactly policy capacity)
    (faithful : draft.Faithful policy capacity) {temps labels : Nat} {part : List Op}
    {call : DirectCall}
    (partExact : ∀ machine : Machine, Shaped policy capacity machine.ctx →
      Throughout Machine.AddsExactly none part machine) :
    (draft.appended (draft.builder.extend temps labels part) call).AddsExactly policy capacity := by
  refine ⟨fun machine word shaped supplied => ?_⟩
  have ops : (draft.appended (draft.builder.extend temps labels part) call).builder.ops.toList =
      draft.builder.ops.toList ++ part := Builder.toList_ops_extend _ _ _ _
  rw [ops]
  have earlier := exact.throughout machine word shaped supplied
  refine throughout_append faithful.leads earlier fun after ended => ?_
  obtain ⟨-, state, -⟩ := faithful.reads_of_shaped shaped supplied
  rw [ended] at state
  have sameStack := congrArg Context.shadow state
  exact partExact after ((shaped.directly word draft.calls).of_shadow_eq sameStack)

theorem AddsExactly.push (exact : draft.AddsExactly policy capacity)
    (faithful : draft.Faithful policy capacity) (site : CallSite)
    (room : (draft.builder.appendPush policy capacity site).temps ≤ UInt16.size) :
    (draft.appended (draft.builder.appendPush policy capacity site) (.push site)).AddsExactly policy
      capacity := by
  cases policy with
  | reset =>
    have apart : [draft.builder.freshTemp 0, draft.builder.freshTemp 1].Nodup :=
      Builder.nodup_freshTemps room
    have limitTop := (List.ne_of_not_mem_cons (List.nodup_cons.1 apart).1).symm
    refine exact.extend faithful fun machine shaped => ?_
    exact throughout_pushReset rfl shaped.fits limitTop _ site
  | wrap =>
    have apart : [draft.builder.freshTemp 0, draft.builder.freshTemp 1,
        draft.builder.freshTemp 2].Nodup := Builder.nodup_freshTemps room
    have limitTop := (List.ne_of_not_mem_cons (List.nodup_cons.1 apart).1).symm
    refine exact.extend faithful fun machine shaped => ?_
    rw [← shaped.capacity_eq]
    exact throughout_pushWrap rfl shaped.fits shaped.policy_eq limitTop _ _ site

theorem AddsExactly.pop (exact : draft.AddsExactly policy capacity)
    (faithful : draft.Faithful policy capacity) {ctx : Context}
    (shaped : Shaped policy capacity ctx) (actual : Temp)
    (tempRoom : (draft.builder.emitPop ctx actual).temps ≤ UInt16.size)
    (labelRoom : (draft.builder.emitPop ctx actual).labels ≤ UInt16.size) :
    (draft.appended (draft.builder.emitPop ctx actual) (.pop actual)).AddsExactly policy
      capacity := by
  obtain ⟨-, rfl, rfl⟩ := shaped
  unfold Builder.emitPop at tempRoom labelRoom ⊢
  cases policy : ctx.shadow.policy with
  | reset =>
    rw [policy] at exact faithful tempRoom
    have apart : (draft.builder.freshTemps 4).Nodup := Builder.nodup_freshTemps tempRoom
    refine exact.extend faithful fun machine shaped => ?_
    exact throughout_popReset rfl shaped.fits apart _
  | wrap =>
    rw [policy] at exact faithful tempRoom labelRoom
    have fewer : draft.builder.temps + 4 ≤ UInt16.size := Nat.le_of_succ_le tempRoom
    have apart : (draft.builder.freshTemps 4).Nodup := Builder.nodup_freshTemps fewer
    have labelsApart : [draft.builder.freshLabel 0, draft.builder.freshLabel 1,
        draft.builder.freshLabel 2].Nodup := Builder.nodup_freshLabels labelRoom
    have unplaced := (List.nodup_cons.1 labelsApart).1
    refine exact.extend faithful fun machine shaped => ?_
    rw [← shaped.capacity_eq]
    exact throughout_popWrap rfl shaped.fits shaped.policy_eq apart unplaced

/-- Every addition that a draft executes is exact, as long as the numbers of its registers and
labels do not wrap around. -/
theorem Built.addsExactly (built : Built policy capacity draft)
    (temps : draft.builder.temps ≤ UInt16.size) (labels : draft.builder.labels ≤ UInt16.size) :
    draft.AddsExactly policy capacity := by
  induction built with
  | empty => exact ⟨fun machine word _ _ => trivial⟩
  | @newInput draft _ ih =>
    refine ⟨fun machine word shaped supplied => ?_⟩
    have ops : draft.newInput.builder.ops.toList = draft.builder.ops.toList := by
      simp [Draft.newInput, Builder.newTemp]
    rw [ops]
    exact (ih (Nat.le_of_succ_le temps) labels).throughout machine word shaped
      fun input member => supplied input (List.mem_cons_of_mem _ member)
  | @push draft built site ih =>
    obtain ⟨moreTemps, moreLabels⟩ := le_appendPush draft.builder policy capacity site
    have fewerTemps := Nat.le_trans moreTemps temps
    have fewerLabels := Nat.le_trans moreLabels labels
    exact (ih fewerTemps fewerLabels).push (built.faithful fewerTemps fewerLabels) site temps
  | @pop draft built ctx shaped actual _ ih =>
    obtain ⟨moreTemps, moreLabels⟩ := le_emitPop draft.builder ctx actual
    have fewerTemps := Nat.le_trans moreTemps temps
    have fewerLabels := Nat.le_trans moreLabels labels
    have faithful := built.faithful fewerTemps fewerLabels
    exact (ih fewerTemps fewerLabels).pop faithful shaped actual temps labels
  | @flush draft built ih =>
    refine (ih temps labels).extend (built.faithful temps labels) fun machine _ => ?_
    exact throughout_of_forall (by simp [Machine.AddsExactly]) none machine
  | @lookup draft built target input ih =>
    have faithful := built.faithful (Nat.le_of_succ_le temps) labels
    refine (ih (Nat.le_of_succ_le temps) labels).extend faithful fun machine _ => ?_
    exact throughout_of_forall (by simp [Machine.AddsExactly]) none machine

end Draft

end TransferCache.Code
