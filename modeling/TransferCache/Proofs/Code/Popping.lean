import TransferCache.Proofs.Code.Pushing

/-!
# Popping by operations

The operations of a pop do what the pop itself does, apart from the counts that are not kept, and
they leave for the host code that the pop leads to. Both policies take the top frame alike; they
differ in how the top is stepped down (`StepsBelow`).

* `forward_popReset`, `forward_popWrap`: popping, under either policy.
-/

namespace TransferCache.Code

open Machine (temp?_bind_self temp?_bind_ne KeepsOutside)

/-- A list is left for a target, or falls through if there is none. -/
def Exit.ofTarget? : Option HostAddr → Exit
  | some host => .leave host
  | none => .fallThrough

section

variable {machine : Machine} {stack : ShadowStack}
  {actual top expected slot host live : Temp}

/-! ## The top frame -/

/-- A pop compares the top frame with the actual address and skips ahead unless they match. -/
theorem forward_matchOps (onStack : machine.ctx.shadow = stack) (fits : Addressable stack)
    (apart : [actual, top, expected].Nodup) {guest : GuestAddr}
    (held : machine.temp? actual = some guest.word) (miss : Label) (ops : List Op) :
    ∃ after, forward none (matchOps actual top expected miss ++ ops) machine =
        forward (if stack.isEmpty = true ∨ stack.peek.expected ≠ guest then some miss else none) ops
          after ∧
      after.ctx = machine.ctx ∧ after.temp? top = some stack.top.toUInt64 ∧
      KeepsOutside [top, expected] machine after := by
  subst onStack
  obtain ⟨⟨actualTop, actualExpected⟩, topExpected⟩ :
      (actual ≠ top ∧ actual ≠ expected) ∧ top ≠ expected := by
    simpa using apart
  have topFits := fits.top_lt
  let loaded := machine.bind top machine.ctx.shadow.top.toUInt64
  have heldTop : loaded.temp? top = some machine.ctx.shadow.top.toUInt64 := temp?_bind_self _ _ _
  have kept : KeepsOutside [top, expected] machine loaded :=
    (KeepsOutside.refl _ machine).bind List.mem_cons_self _
  have decided := holds_eq_zero topFits
  have start : forward none (matchOps actual top expected miss ++ ops) machine =
      forward none (.branch .eq top (.constant 0) miss :: .loadEntry expected top .expected ::
        .branch .ne actual (.temp expected) miss :: ops) loaded := rfl
  rw [start]
  by_cases empty : machine.ctx.shadow.top = 0
  · have bare : machine.ctx.shadow.isEmpty = true := decide_eq_true empty
    rw [forward_branch_taken heldTop rfl (decided.trans (decide_eq_true empty)),
      forward_skip (by simp [Op.place?]), forward_skip (by simp [Op.place?]), if_pos (Or.inl bare)]
    exact ⟨loaded, rfl, rfl, heldTop, kept⟩
  · have busy : ¬machine.ctx.shadow.isEmpty = true := mt of_decide_eq_true empty
    have found : loaded.ctx.shadow.frameAt? machine.ctx.shadow.top.toUInt64.toNat =
        some machine.ctx.shadow.peek := by
      rw [toNat_toUInt64 topFits]
      exact fits.wf.frameAt?_top
    let compared := loaded.bind expected machine.ctx.shadow.peek.expected.word
    have heldActual : compared.temp? actual = some guest.word := by
      rw [temp?_bind_ne _ (Ne.symm actualExpected), temp?_bind_ne _ (Ne.symm actualTop)]
      exact held
    have heldExpected : compared.operand? (.temp expected) =
        some machine.ctx.shadow.peek.expected.word := temp?_bind_self _ _ _
    have differs : Condition.ne.holds guest.word machine.ctx.shadow.peek.expected.word =
        decide (machine.ctx.shadow.isEmpty = true ∨ machine.ctx.shadow.peek.expected ≠ guest) := by
      refine decide_eq_decide.2 ⟨fun apart => Or.inr fun same => apart (same ▸ rfl), ?_⟩
      rintro (bare | apart) same
      · exact busy bare
      · exact apart (congrArg GuestAddr.mk same).symm
    rw [forward_branch_passed heldTop rfl (decided.trans (decide_eq_false empty)),
      forward_loadEntry heldTop found]
    change ∃ after, forward none (.branch .ne actual (.temp expected) miss :: ops) compared = _ ∧ _
    rw [forward_branch heldActual heldExpected, differs]
    refine ⟨compared, ?_, rfl, ?_, ?_⟩
    · simp only [decide_eq_true_eq]
    · exact (temp?_bind_ne _ (Ne.symm topExpected) _).trans heldTop
    · exact kept.bind (by simp) _

/-- A pop that matched loads the host code for the top frame and steps below that frame. -/
theorem forward_takeFrameOps (onStack : machine.ctx.shadow = stack) (fits : Addressable stack)
    (busy : stack.top ≠ 0) (apart : [top, slot, host].Nodup)
    (held : machine.temp? top = some stack.top.toUInt64) (ops : List Op) :
    ∃ after, forward none (takeFrameOps top slot host ++ ops) machine = forward none ops after ∧
      after.ctx = machine.ctx ∧ after.temp? top = some (stack.top - 1).toUInt64 ∧
      after.temp? host = some (machine.ctx.slots.value stack.peek.slot).word ∧
      KeepsOutside [top, slot, host] machine after := by
  subst onStack
  obtain ⟨⟨topSlot, topHost⟩, slotHost⟩ : (top ≠ slot ∧ top ≠ host) ∧ slot ≠ host := by
    simpa using apart
  have found : machine.ctx.shadow.frameAt? machine.ctx.shadow.top.toUInt64.toNat =
      some machine.ctx.shadow.peek := by
    rw [toNat_toUInt64 fits.top_lt]
    exact fits.wf.frameAt?_top
  let named := machine.bind slot machine.ctx.shadow.peek.slot.index
  let loaded := named.bind host (machine.ctx.slots.value machine.ctx.shadow.peek.slot).word
  have heldSlot : named.temp? slot = some machine.ctx.shadow.peek.slot.index :=
    temp?_bind_self _ _ _
  have heldTop : loaded.temp? top = some machine.ctx.shadow.top.toUInt64 := by
    rw [temp?_bind_ne _ (Ne.symm topHost), temp?_bind_ne _ (Ne.symm topSlot)]
    exact held
  have below := toUInt64_sub_one (Nat.pos_of_ne_zero busy)
  have ran : forward none (takeFrameOps top slot host ++ ops) machine =
      forward none ops (loaded.bind top (machine.ctx.shadow.top - 1).toUInt64) := by
    unfold takeFrameOps
    simp only [List.cons_append, List.nil_append]
    rw [forward_loadEntry held found]
    apply (forward_loadSlot heldSlot).trans
    apply (forward_addConstant heldTop (-1)).trans
    rw [below]
  refine ⟨_, ran, rfl, temp?_bind_self _ _ _, ?_, ?_⟩
  · rw [temp?_bind_ne _ topHost]
    exact temp?_bind_self _ _ _
  · have kept : KeepsOutside [top, slot, host] machine named :=
      (KeepsOutside.refl _ machine).bind (by simp) _
    exact (kept.bind (by simp) _).bind (by simp) _

/-! ## Stepping down a ring -/

/-- A register is overwritten only if another one holds zero. -/
theorem forward_setIfZero {tested : Temp} {count : Nat} (words : count < UInt64.size)
    (held : machine.temp? tested = some count.toUInt64) (dst : Temp) (word : UInt64)
    (label : Label) (ops : List Op) :
    ∃ after,
      forward none (.branch .ne tested (.constant 0) label :: .setConstant dst word ::
        .label label :: ops) machine = forward none ops after ∧
      after.ctx = machine.ctx ∧
      after.temp? dst = (if count = 0 then some word else machine.temp? dst) ∧
      KeepsOutside [dst] machine after := by
  have decided := holds_ne_zero words
  by_cases zero : count = 0
  · rw [forward_branch_passed held rfl (decided.trans (decide_eq_false (not_not.2 zero))),
      forward_setConstant, forward_label, if_pos zero]
    exact ⟨_, rfl, rfl, temp?_bind_self _ _ _,
      (KeepsOutside.refl _ machine).bind List.mem_cons_self _⟩
  · rw [forward_branch_taken held rfl (decided.trans (decide_eq_true zero)),
      forward_skip (by simp [Op.place?]), forward_place, if_neg zero]
    exact ⟨machine, rfl, rfl, rfl, KeepsOutside.refl _ machine⟩

/-- The index below the top, in its register, is corrected twice: at the base it turns around to the
last index, and it stays on the base if no frame is left. -/
theorem forward_correctTop (fits : Addressable stack) (ring : stack.policy = .wrap)
    (busy : stack.top ≠ 0) (apart : top ≠ live)
    (heldTop : machine.temp? top = some (stack.top - 1).toUInt64)
    (heldCount : machine.temp? live = some (stack.ringLive - 1).toUInt64)
    (stepped stored : Label) (ops : List Op) :
    ∃ after,
      forward none (.branch .ne top (.constant 0) stepped ::
        .setConstant top stack.capacity.toUInt64 :: .label stepped ::
        .branch .ne live (.constant 0) stored :: .setConstant top 0 :: .label stored :: ops)
        machine = forward none ops after ∧
      after.ctx = machine.ctx ∧ after.temp? top = some stack.retreat.toUInt64 ∧
      KeepsOutside [top] machine after := by
  have topFits := fits.top_lt
  have words := fits.capacity_lt
  have bounded := fits.wf.live_le
  rw [ShadowStack.live_of_wrap ring] at bounded
  rcases forward_setIfZero (by omega) heldTop top stack.capacity.toUInt64 stepped
      (.branch .ne live (.constant 0) stored :: .setConstant top 0 :: .label stored :: ops) with
    ⟨turned, wentRound, turnedCtx, turnedTop, turnedKept⟩
  have turnedCount : turned.temp? live = some (stack.ringLive - 1).toUInt64 :=
    (turnedKept live (mt List.mem_singleton.1 (Ne.symm apart))).trans heldCount
  rcases forward_setIfZero (by omega) turnedCount top 0 stored ops with
    ⟨lowered, wentDown, loweredCtx, loweredTop, loweredKept⟩
  refine ⟨lowered, wentRound.trans wentDown, loweredCtx.trans turnedCtx, ?_,
    turnedKept.trans loweredKept⟩
  rw [loweredTop, turnedTop, heldTop]
  unfold ShadowStack.retreat
  rw [ring]
  by_cases last : stack.ringLive ≤ 1
  · rw [if_pos (by omega), if_pos last]
    rfl
  · rw [if_neg (by omega), if_neg last]
    by_cases first : stack.top = 1
    · rw [if_pos (by omega), if_pos first]
    · rw [if_neg (by omega), if_neg first]

/-- A pop that matched counts a ring down and steps its top down. -/
theorem forward_ringPopOps (onStack : machine.ctx.shadow = stack) (fits : Addressable stack)
    (ring : stack.policy = .wrap) (busy : stack.top ≠ 0) (apart : top ≠ live)
    (held : machine.temp? top = some (stack.top - 1).toUInt64) (stepped stored : Label)
    (ops : List Op) :
    ∃ after, forward none (ringPopOps stack.capacity top live stepped stored ++ ops) machine =
        forward none ops after ∧
      after.ctx = { machine.ctx with shadow := stack.pop } ∧
      KeepsOutside [top, live] machine after := by
  have count : stack.live = stack.ringLive := ShadowStack.live_of_wrap ring
  have words := fits.capacity_lt
  have bounded := fits.wf.live_le
  have populated : 0 < stack.ringLive :=
    Nat.pos_of_ne_zero fun none => busy (fits.wf.top_eq_zero_iff.2 (count.trans none))
  have popped := ShadowStack.pop_of_wrap ring (mt of_decide_eq_true busy)
  have retreatInside : stack.retreat < stack.limit := by
    have bounded := fits.wf.pop.top_le
    rw [fits.wf.limit_eq, ← ShadowStack.capacity_pop stack]
    rw [popped] at bounded ⊢
    exact Nat.lt_succ_of_le bounded
  let loaded := machine.bind live stack.ringLive.toUInt64
  let counted := loaded.bind live (stack.ringLive - 1).toUInt64
  have heldTop : counted.temp? top = some (stack.top - 1).toUInt64 := by
    rw [temp?_bind_ne _ (Ne.symm apart), temp?_bind_ne _ (Ne.symm apart)]
    exact held
  have heldCount : counted.temp? live = some (stack.ringLive - 1).toUInt64 :=
    temp?_bind_self _ _ _
  have keptCounting : KeepsOutside [top, live] machine counted := by
    have here : live ∈ [top, live] := List.mem_cons_of_mem _ List.mem_cons_self
    exact ((KeepsOutside.refl _ machine).bind here _).bind here _
  rcases forward_correctTop fits ring busy apart heldTop heldCount stepped stored
      (.storeField .top top :: .storeField .live live :: ops) with
    ⟨lowered, corrected, loweredCtx, heldRetreat, kept⟩
  have sameStack : lowered.ctx.shadow = stack := by
    rw [loweredCtx]
    exact onStack
  let moved := lowered.mapShadow fun _ => { lowered.ctx.shadow with top := stack.retreat }
  have heldStill : moved.temp? live = some (stack.ringLive - 1).toUInt64 :=
    (kept live (mt List.mem_singleton.1 (Ne.symm apart))).trans heldCount
  have capacity : moved.ctx.shadow.capacity = stack.capacity := by
    rw [← sameStack]
    rfl
  have start : forward none (ringPopOps stack.capacity top live stepped stored ++ ops) machine =
      forward none (.branch .ne top (.constant 0) stepped ::
        .setConstant top stack.capacity.toUInt64 :: .label stepped ::
        .branch .ne live (.constant 0) stored :: .setConstant top 0 :: .label stored ::
        .storeField .top top :: .storeField .live live :: ops) counted := by
    have heldLoaded : loaded.temp? live = some stack.ringLive.toUInt64 := temp?_bind_self _ _ _
    have read : Machine.loadField machine.ctx.shadow .live = stack.ringLive.toUInt64 := by
      rw [onStack, ← count]
      rfl
    unfold ringPopOps
    simp only [List.cons_append, List.nil_append]
    rw [forward_loadField, read]
    apply (forward_addConstant heldLoaded (-1)).trans
    rw [toUInt64_sub_one populated]
  have retreatWord := toNat_toUInt64 (Nat.lt_trans retreatInside fits.limit_lt)
  have countWord := toNat_toUInt64 (show stack.ringLive - 1 < UInt64.size by omega)
  rw [start, corrected, forward_storeTop heldRetreat (by rwa [retreatWord, sameStack]),
    retreatWord]
  change ∃ after, forward none (.storeField .live live :: ops) moved = _ ∧ _
  rw [forward_storeLive heldStill (by rw [countWord, capacity]; omega), countWord]
  refine ⟨_, rfl, ?_, ?_⟩
  · simp only [Machine.mapShadow, moved]
    rw [loweredCtx, popped, ← onStack]
    rfl
  · exact keptCounting.trans (kept.mono (by simp))

/-! ## Leaving -/

/-- At its end a pop leaves for the host code, unless that is unresolved. -/
theorem forward_leaveOps {code : HostAddr} (held : machine.temp? host = some code.word)
    (miss : Label) :
    forward none (leaveOps host miss) machine =
      (.ok (if code.isUnresolved then .fallThrough else .leave code), machine) := by
  have decided : Condition.eq.holds code.word HostAddr.unresolved.word = code.isUnresolved := by
    refine decide_eq_decide.2 ⟨fun same => ?_, fun same => same ▸ rfl⟩
    exact congrArg HostAddr.mk same
  unfold leaveOps
  cases unresolved : code.isUnresolved with
  | true =>
    rw [forward_branch_taken held rfl (decided.trans unresolved),
      forward_skip (by simp [Op.place?]), forward_place]
    rfl
  | false =>
    rw [forward_branch_passed held rfl (decided.trans unresolved), forward_leave held]
    rfl

/-- A pop that did not match falls out of the end. -/
theorem forward_skip_leaveOps (host : Temp) (miss : Label) (machine : Machine) :
    forward (some miss) (leaveOps host miss) machine = (.ok .fallThrough, machine) := by
  unfold leaveOps
  rw [forward_skip (by simp [Op.place?]), forward_skip (by simp [Op.place?]), forward_place]
  rfl

/-! ## Pops -/

/-- On this context the operations finish the pop of the frame above which the register points: they
pop the stack and change only the given registers. -/
def StepsBelow (ctx : Context) (top : Temp) (written : List Temp) (stepOps : List Op) : Prop :=
  ∀ machine : Machine, machine.ctx = ctx → ctx.shadow.top ≠ 0 →
    machine.temp? top = some (ctx.shadow.top - 1).toUInt64 → ∀ ops,
      ∃ after, forward none (stepOps ++ ops) machine = forward none ops after ∧
        after.ctx = { ctx with shadow := ctx.shadow.pop } ∧
        KeepsOutside written machine after

theorem stepsBelow_storeTop {ctx : Context} (fits : Addressable ctx.shadow)
    (policy : ctx.shadow.policy = .reset) (top : Temp) :
    StepsBelow ctx top [top] [.storeField .top top] := by
  intro machine onCtx busy held ops
  have bounded := fits.wf.top_le
  have limit := fits.wf.limit_eq
  have topFits := fits.top_lt
  have word := toNat_toUInt64 (show ctx.shadow.top - 1 < UInt64.size by omega)
  have inside : ctx.shadow.top - 1 < machine.ctx.shadow.limit := by
    rw [onCtx]
    omega
  have popped := ShadowStack.pop_of_reset policy (mt of_decide_eq_true busy)
  refine ⟨_, forward_storeTop held (by rwa [word]), ?_, fun _ _ => rfl⟩
  simp only [Machine.mapShadow]
  rw [onCtx, popped, word]

theorem stepsBelow_ringPopOps {ctx : Context} (fits : Addressable ctx.shadow)
    (policy : ctx.shadow.policy = .wrap) (apart : top ≠ live) (stepped stored : Label) :
    StepsBelow ctx top [top, live]
      (ringPopOps ctx.shadow.capacity top live stepped stored) := by
  intro machine onCtx busy held ops
  subst onCtx
  exact forward_ringPopOps rfl fits policy busy apart held stepped stored ops

/-- A pop, for whatever operations step the top down once its frame has been taken. -/
theorem forward_pop {ctx : Context} (agrees : machine.ctx = ctx.uncounted)
    (fits : Addressable ctx.shadow) (apart : [actual, top, expected, slot, host].Nodup)
    {guest : GuestAddr} (held : machine.temp? actual = some guest.word) {miss : Label}
    {stepOps : List Op} (unplaced : miss ∉ placed stepOps) {written : List Temp}
    (notHost : host ∉ written) (steps : StepsBelow ctx.uncounted top written stepOps) :
    ∃ after,
      forward none (matchOps actual top expected miss ++ takeFrameOps top slot host ++ stepOps ++
        leaveOps host miss) machine =
        (.ok (.ofTarget? (ctx.pop guest).value.target?), after) ∧
      after.ctx = (ctx.pop guest).state.uncounted ∧
      KeepsOutside ([top, expected, slot, host] ++ written) machine after := by
  have onStack : machine.ctx.shadow = ctx.shadow := by rw [agrees]; rfl
  have slots : machine.ctx.slots = ctx.slots := by rw [agrees]; rfl
  have matchApart : [actual, top, expected].Nodup := apart.sublist (by simp)
  have takeApart : [top, slot, host].Nodup := apart.sublist (by simp)
  rw [List.append_assoc, List.append_assoc]
  rcases forward_matchOps onStack fits matchApart held miss
      (takeFrameOps top slot host ++ (stepOps ++ leaveOps host miss)) with
    ⟨compared, matching, sameCtx, heldTop, kept⟩
  rw [matching]
  by_cases missed : ctx.shadow.isEmpty = true ∨ ctx.shadow.peek.expected ≠ guest
  · obtain ⟨nowhere, unchanged⟩ := Context.pop_uncounted_of_mismatch missed
    have plain : miss ∉ placed (takeFrameOps top slot host) := List.not_mem_nil
    rw [if_pos missed, forward_skip_append plain, forward_skip_append unplaced,
      forward_skip_leaveOps, nowhere, unchanged]
    exact ⟨compared, rfl, sameCtx.trans agrees, kept.mono (by simp)⟩
  · obtain ⟨leads, popped⟩ := Context.pop_uncounted_of_match missed
    have busy : ctx.shadow.top ≠ 0 := fun empty => missed (Or.inl (decide_eq_true empty))
    rw [if_neg missed]
    rcases forward_takeFrameOps (sameCtx ▸ onStack) fits busy takeApart heldTop
        (stepOps ++ leaveOps host miss) with
      ⟨taken, took, takenCtx, below, heldHost, keptTaken⟩
    rcases steps taken (takenCtx.trans (sameCtx.trans agrees)) busy below (leaveOps host miss) with
      ⟨stepped, went, steppedCtx, keptStepped⟩
    have heldCode : stepped.temp? host = some (ctx.slots.value ctx.shadow.peek.slot).word := by
      rw [keptStepped host notHost, heldHost, sameCtx, slots]
    rw [took, went, forward_leaveOps heldCode, leads, popped]
    refine ⟨stepped, ?_, steppedCtx, ?_⟩
    · cases (ctx.slots.value ctx.shadow.peek.slot).isUnresolved <;> rfl
    · have keptTaking : KeepsOutside ([top, expected, slot, host] ++ written) machine taken :=
        (kept.mono (by simp)).trans (keptTaken.mono (by simp))
      exact keptTaking.trans (keptStepped.mono (List.subset_append_right _ _))

/-- The operations of a pop under the reset policy pop the stack and leave as the pop predicts. -/
theorem forward_popReset {ctx : Context} (agrees : machine.ctx = ctx.uncounted)
    (fits : Addressable ctx.shadow) (policy : ctx.shadow.policy = .reset)
    (apart : [actual, top, expected, slot, host].Nodup) {guest : GuestAddr}
    (held : machine.temp? actual = some guest.word) (miss : Label) :
    ∃ after,
      forward none (matchOps actual top expected miss ++ takeFrameOps top slot host ++
        [.storeField .top top] ++ leaveOps host miss) machine =
        (.ok (.ofTarget? (ctx.pop guest).value.target?), after) ∧
      after.ctx = (ctx.pop guest).state.uncounted ∧
      KeepsOutside [top, expected, slot, host] machine after := by
  have notHost : host ∉ [top] := by
    rintro member
    simp [List.mem_singleton.1 member] at apart
  have unplaced : miss ∉ placed [.storeField .top top] := List.not_mem_nil
  have fitsToo : Addressable ctx.uncounted.shadow := fits
  have steps := stepsBelow_storeTop fitsToo policy top
  obtain ⟨after, ran, state, kept⟩ := forward_pop agrees fits apart held unplaced notHost steps
  exact ⟨after, ran, state, kept.mono (by simp)⟩

/-- The operations of a pop on a ring pop the stack and leave as the pop predicts. -/
theorem forward_popWrap {ctx : Context} (agrees : machine.ctx = ctx.uncounted)
    (fits : Addressable ctx.shadow) (policy : ctx.shadow.policy = .wrap)
    (apart : [actual, top, expected, slot, host, live].Nodup) {guest : GuestAddr}
    (held : machine.temp? actual = some guest.word) {miss stepped stored : Label}
    (unplaced : miss ∉ [stepped, stored]) :
    ∃ after,
      forward none (matchOps actual top expected miss ++ takeFrameOps top slot host ++
        ringPopOps ctx.shadow.capacity top live stepped stored ++ leaveOps host miss) machine =
        (.ok (.ofTarget? (ctx.pop guest).value.target?), after) ∧
      after.ctx = (ctx.pop guest).state.uncounted ∧
      KeepsOutside [top, expected, slot, host, live] machine after := by
  have fewer : [actual, top, expected, slot, host].Nodup := apart.sublist (by simp)
  have topLive : top ≠ live := by
    rintro rfl
    simp at apart
  have notHost : host ∉ [top, live] := by
    intro member
    rcases List.mem_pair.1 member with rfl | rfl
    · simp at apart
    · simp at apart
  have fitsToo : Addressable ctx.uncounted.shadow := fits
  have steps := stepsBelow_ringPopOps fitsToo policy topLive stepped stored
  obtain ⟨after, ran, state, kept⟩ := forward_pop agrees fits fewer held unplaced notHost steps
  exact ⟨after, ran, state, kept.mono (by simp)⟩

end

end TransferCache.Code
