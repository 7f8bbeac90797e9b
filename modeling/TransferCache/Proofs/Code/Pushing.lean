import TransferCache.Code.Emit
import TransferCache.Proofs.Code.Execution
import TransferCache.Proofs.Context.Uncounted

/-!
# Pushing by operations

On a context with a well-formed stack that words can index, the operations of a push do what the
push itself does, apart from the counts that plain loads and stores do not keep
(`Context.uncounted`). Only their own registers change.

* `forward_pushReset`, `forward_pushWrap`: pushing, under either policy.
-/

namespace TransferCache.Code

open Machine (temp?_bind_self temp?_bind_ne KeepsOutside)

/-- The stack is well formed and all its indices are words. -/
structure Addressable (stack : ShadowStack) : Prop where
  wf : stack.WellFormed
  limit_lt : stack.limit < UInt64.size

namespace Addressable

variable {stack : ShadowStack}

theorem top_lt (fits : Addressable stack) : stack.top < UInt64.size := by
  have bounded := fits.wf.top_le
  have limit := fits.wf.limit_eq
  have words := fits.limit_lt
  omega

theorem capacity_lt (fits : Addressable stack) : stack.capacity < UInt64.size := by
  have limit := fits.wf.limit_eq
  have words := fits.limit_lt
  omega

theorem advance_lt (fits : Addressable stack) : stack.advance.1 < stack.limit := by
  have bounded := fits.wf.top_le
  have limit := fits.wf.limit_eq
  have room := fits.wf.capacity_pos
  rw [fits.wf.advance_fst]
  split <;> omega

end Addressable

section

variable {machine : Machine} {stack : ShadowStack} {top limit live : Temp}

/-- A push reads top and limit and steps past the top; it skips what follows if that is in range. -/
theorem forward_advanceOps (onStack : machine.ctx.shadow = stack) (fits : Addressable stack)
    (apart : limit ≠ top) (inRange : Label) (ops : List Op) :
    ∃ moved,
      forward none (advanceOps top limit inRange ++ ops) machine =
        forward (if stack.top = stack.capacity then none else some inRange) ops moved ∧
      moved.ctx = machine.ctx ∧ moved.temp? top = some (stack.top + 1).toUInt64 ∧
      KeepsOutside [top, limit] machine moved := by
  subst onStack
  have bounded := fits.wf.top_le
  have limitEq := fits.wf.limit_eq
  have words := fits.limit_lt
  have nextFits : machine.ctx.shadow.top + 1 < UInt64.size := by omega
  let loaded := (machine.bind top machine.ctx.shadow.top.toUInt64).bind limit
    machine.ctx.shadow.limit.toUInt64
  let moved := loaded.bind top (machine.ctx.shadow.top + 1).toUInt64
  have heldTop : loaded.temp? top = some machine.ctx.shadow.top.toUInt64 := by
    rw [temp?_bind_ne _ apart, temp?_bind_self]
  have heldNext : moved.temp? top = some (machine.ctx.shadow.top + 1).toUInt64 :=
    temp?_bind_self _ _ _
  have heldLimit : moved.operand? (.temp limit) = some machine.ctx.shadow.limit.toUInt64 :=
    (temp?_bind_ne _ (Ne.symm apart) _).trans (temp?_bind_self _ _ _)
  have kept : KeepsOutside [top, limit] machine moved := by
    have first : top ∈ [top, limit] := List.mem_cons_self
    have second : limit ∈ [top, limit] := List.mem_cons_of_mem _ List.mem_cons_self
    exact (((KeepsOutside.refl _ machine).bind first _).bind second _).bind first _
  have added : machine.ctx.shadow.top.toUInt64 + (1 : Int64).toUInt64 =
      (machine.ctx.shadow.top + 1).toUInt64 := toUInt64_add_one _
  have decided := holds_lt nextFits words
  refine ⟨moved, ?_, rfl, heldNext, kept⟩
  change forward none (.addConstant top top 1 :: .branch .lt top (.temp limit) inRange :: ops)
    loaded = _
  rw [forward_addConstant heldTop, added]
  by_cases full : machine.ctx.shadow.top = machine.ctx.shadow.capacity
  · rw [if_pos full]
    apply forward_branch_passed heldNext heldLimit
    exact decided.trans (decide_eq_false (by omega))
  · rw [if_neg full]
    apply forward_branch_taken heldNext heldLimit
    exact decided.trans (decide_eq_true (by omega))

/-- Out of range, a push under the reset policy notes the overflow and starts again. -/
theorem forward_restartOps (top : Temp) (inRange : Label) (ops : List Op) (machine : Machine) :
    forward none (restartOps top inRange ++ ops) machine =
      forward none ops ((machine.perform Context.noteOverflow).2.bind top 1) := rfl

theorem forward_skip_restartOps (top : Temp) (inRange : Label) (ops : List Op)
    (machine : Machine) :
    forward (some inRange) (restartOps top inRange ++ ops) machine = forward none ops machine :=
  forward_place inRange ops machine

/-- A push on a ring reads the live count; if the ring is full it notes the overflow, and the count
stays what it is. -/
theorem forward_skip_ringPushOps (onStack : machine.ctx.shadow = stack) (fits : Addressable stack)
    (ring : stack.policy = .wrap) (top live : Temp) (inRange notFull : Label) (ops : List Op) :
    ∃ after,
      forward (some inRange) (ringPushOps stack.capacity top live inRange notFull ++ ops) machine =
        forward none ops after ∧
      after.ctx = (if stack.advance.2 then machine.ctx.noteOverflow.state else machine.ctx) ∧
      after.temp? live =
        some (if stack.advance.2 then stack.ringLive else stack.ringLive + 1).toUInt64 ∧
      KeepsOutside [live] machine after := by
  subst onStack
  have count : machine.ctx.shadow.live = machine.ctx.shadow.ringLive :=
    ShadowStack.live_of_wrap ring
  have bounded := fits.wf.live_le
  have room := fits.wf.capacity_pos
  have words := fits.capacity_lt
  set counted := machine.bind live machine.ctx.shadow.ringLive.toUInt64
  have heldLive : counted.temp? live = some machine.ctx.shadow.ringLive.toUInt64 :=
    temp?_bind_self _ _ _
  have here : live ∈ [live] := List.mem_singleton_self live
  have kept : KeepsOutside [live] machine counted := (KeepsOutside.refl _ machine).bind here _
  have decided := holds_lt (show machine.ctx.shadow.ringLive < UInt64.size by omega) words
  have full : machine.ctx.shadow.advance.2 =
      decide (machine.ctx.shadow.ringLive = machine.ctx.shadow.capacity) := by
    rw [fits.wf.advance_snd, count]
  have entered : forward (some inRange)
        (ringPushOps machine.ctx.shadow.capacity top live inRange notFull ++ ops) machine =
      forward none
        (.branch .lt live (.constant machine.ctx.shadow.capacity.toUInt64) notFull ::
          .call .noteOverflow none none ::
          .setConstant live (machine.ctx.shadow.capacity - 1).toUInt64 ::
          .label notFull :: .addConstant live live 1 :: ops) counted := by
    unfold ringPushOps
    simp only [List.cons_append, List.nil_append]
    rw [forward_skip (by simp [Op.place?]), forward_place, forward_loadField]
    change forward none _ (machine.bind live machine.ctx.shadow.live.toUInt64) = _
    rw [count]
  rw [entered]
  by_cases busy : machine.ctx.shadow.ringLive = machine.ctx.shadow.capacity
  · have overflows : machine.ctx.shadow.advance.2 = true := full.trans (decide_eq_true busy)
    have restored : (machine.ctx.shadow.capacity - 1).toUInt64 + (1 : Int64).toUInt64 =
        machine.ctx.shadow.ringLive.toUInt64 := by
      apply (toUInt64_add_one _).trans
      rw [busy, Nat.sub_add_cancel room]
    rw [forward_branch_passed heldLive rfl (decided.trans (decide_eq_false (by omega))),
      forward_noteOverflow, forward_setConstant, forward_label,
      forward_addConstant (temp?_bind_self _ _ _), restored, if_pos overflows, if_pos overflows]
    have keptNoting : KeepsOutside [live] machine (counted.perform Context.noteOverflow).2 := kept
    exact ⟨_, rfl, rfl, temp?_bind_self _ _ _, (keptNoting.bind here _).bind here _⟩
  · have fits : ¬machine.ctx.shadow.advance.2 = true := by
      rw [full]
      exact mt of_decide_eq_true busy
    have added : machine.ctx.shadow.ringLive.toUInt64 + (1 : Int64).toUInt64 =
        (machine.ctx.shadow.ringLive + 1).toUInt64 := toUInt64_add_one _
    rw [forward_branch_taken heldLive rfl (decided.trans (decide_eq_true (by omega))),
      forward_skip (by simp [Op.place?]), forward_skip (by simp [Op.place?]), forward_place,
      forward_addConstant heldLive, added, if_neg fits, if_neg fits]
    exact ⟨_, rfl, rfl, temp?_bind_self _ _ _, kept.bind here _⟩

/-- Out of range, a push on a ring wraps around to the first index. -/
theorem forward_ringPushOps (capacity : Nat) (top live : Temp) (inRange notFull : Label)
    (ops : List Op) (machine : Machine) :
    forward none (ringPushOps capacity top live inRange notFull ++ ops) machine =
      forward (some inRange) (ringPushOps capacity top live inRange notFull ++ ops)
        (machine.bind top 1) := by
  unfold ringPushOps
  simp only [List.cons_append, List.nil_append]
  rw [forward_setConstant, forward_label, forward_skip (by simp [Op.place?]), forward_place]

/-- A push stores the frame at the new top, half by half, and then the top. -/
theorem forward_storeFrameOps (onStack : machine.ctx.shadow = stack) {next : Nat}
    (inside : next < stack.limit) (words : stack.limit < UInt64.size)
    (held : machine.temp? top = some next.toUInt64) (site : CallSite) (ops : List Op) :
    forward none (storeFrameOps top site ++ ops) machine =
      forward none ops (machine.mapShadow fun _ =>
        { stack.setEntry next site.frame with top := next }) := by
  subst onStack
  have index : next.toUInt64.toNat = next := toNat_toUInt64 (Nat.lt_trans inside words)
  obtain ⟨frame, found⟩ : ∃ frame, machine.ctx.shadow.frameAt? next = some frame :=
    ⟨_, Array.getElem?_eq_getElem inside⟩
  -- The machine after each half.
  let first := machine.mapShadow
    (·.setEntry next (Machine.storePart frame .expected site.ret.word))
  let second := first.mapShadow (·.setEntry next site.frame)
  have heldFirst : first.temp? top = some next.toUInt64 := held
  have heldSecond : second.temp? top = some next.toUInt64 := held
  have half : first.ctx.shadow.frameAt? next.toUInt64.toNat =
      some (Machine.storePart frame .expected site.ret.word) := by
    rw [index]
    exact ShadowStack.frameAt?_setEntry inside _
  have limit : second.ctx.shadow.limit = machine.ctx.shadow.limit :=
    (ShadowStack.limit_setEntry _ _ _).trans (ShadowStack.limit_setEntry _ _ _)
  have both : second.ctx.shadow = machine.ctx.shadow.setEntry next site.frame :=
    ShadowStack.setEntry_setEntry _ _ _ _
  calc forward none (storeFrameOps top site ++ ops) machine
      = forward none (.storeEntry top .slot (.constant site.slot.index) ::
          .storeField .top top :: ops) first := by
        apply (forward_storeEntry held (index.symm ▸ found) .expected site.ret.word).trans
        rw [index]
        rfl
    _ = forward none (.storeField .top top :: ops) second := by
        rw [forward_storeEntry heldFirst half, index]
        rfl
    _ = _ := by
        rw [forward_storeTop heldSecond (by rwa [index, limit]), index, both]
        rfl

/-! ## Under the reset policy -/

/-- Up to the store, a push under the reset policy finds the next index and notes an overflow. -/
theorem forward_advance_restart (onStack : machine.ctx.shadow = stack) (fits : Addressable stack)
    (policy : stack.policy = .reset) (apart : limit ≠ top) (inRange : Label) (ops : List Op) :
    ∃ after,
      forward none (advanceOps top limit inRange ++ (restartOps top inRange ++ ops)) machine =
        forward none ops after ∧
      after.ctx = (if stack.advance.2 then machine.ctx.noteOverflow.state else machine.ctx) ∧
      after.temp? top = some stack.advance.1.toUInt64 ∧
      KeepsOutside [top, limit] machine after := by
  have next := fits.wf.advance_fst
  have full := fits.wf.advance_snd
  rw [ShadowStack.live_of_reset policy] at full
  rcases forward_advanceOps onStack fits apart inRange (restartOps top inRange ++ ops) with
    ⟨moved, reached, same, held, kept⟩
  rw [reached, next, full, ← same]
  by_cases last : stack.top = stack.capacity
  · simp only [last, if_true, decide_true]
    rw [forward_restartOps]
    have keptNoting : KeepsOutside [top, limit] machine
        (moved.perform Context.noteOverflow).2 := kept
    exact ⟨_, rfl, rfl, temp?_bind_self _ _ _, keptNoting.bind List.mem_cons_self _⟩
  · simp only [last, if_false, decide_false, Bool.false_eq_true]
    rw [forward_skip_restartOps]
    exact ⟨moved, rfl, rfl, held, kept⟩

/-- The operations of a push under the reset policy push the frame. -/
theorem forward_pushReset {ctx : Context} (agrees : machine.ctx = ctx.uncounted)
    (fits : Addressable ctx.shadow) (policy : ctx.shadow.policy = .reset) (apart : limit ≠ top)
    (inRange : Label) (site : CallSite) :
    ∃ after,
      forward none (advanceOps top limit inRange ++ restartOps top inRange ++
        storeFrameOps top site) machine = (.ok .fallThrough, after) ∧
      after.ctx = (ctx.push site).state.uncounted ∧
      KeepsOutside [top, limit] machine after := by
  have onStack : machine.ctx.shadow = ctx.shadow := by rw [agrees]; rfl
  rcases forward_advance_restart onStack fits policy apart inRange (storeFrameOps top site) with
    ⟨moved, reached, noted, held, kept⟩
  have stillOnStack : moved.ctx.shadow = ctx.shadow := by
    rw [noted]
    split <;> exact onStack
  have stored := forward_storeFrameOps stillOnStack fits.advance_lt fits.limit_lt held site []
  rw [List.append_nil] at stored
  have pushed : (ctx.shadow.push site.frame).1 =
      { ctx.shadow.setEntry ctx.shadow.advance.1 site.frame with top := ctx.shadow.advance.1 } := by
    simp [ShadowStack.push, ShadowStack.setEntry, policy]
  rw [List.append_assoc, reached, stored]
  refine ⟨_, rfl, ?_, kept⟩
  rw [Context.state_push_uncounted, ← agrees, pushed]
  simp only [Machine.mapShadow, noted]
  rfl

/-! ## Under the wrap policy -/

/-- Up to the store, a push on a ring finds the next index, counts the frame if there is room for
one more, and notes an overflow if there is not. -/
theorem forward_advance_ring (onStack : machine.ctx.shadow = stack) (fits : Addressable stack)
    (policy : stack.policy = .wrap) (apart : [top, limit, live].Nodup) (inRange notFull : Label)
    (ops : List Op) :
    ∃ after,
      forward none (advanceOps top limit inRange ++
        (ringPushOps stack.capacity top live inRange notFull ++ ops)) machine =
        forward none ops after ∧
      after.ctx = (if stack.advance.2 then machine.ctx.noteOverflow.state else machine.ctx) ∧
      after.temp? top = some stack.advance.1.toUInt64 ∧
      after.temp? live =
        some (if stack.advance.2 then stack.ringLive else stack.ringLive + 1).toUInt64 ∧
      KeepsOutside [top, limit, live] machine after := by
  obtain ⟨⟨topLimit, topLive⟩, limitLive⟩ : (top ≠ limit ∧ top ≠ live) ∧ limit ≠ live := by
    simpa using apart
  have next := fits.wf.advance_fst
  -- Whether or not the top wraps around, the count is read with the next index in its register.
  obtain ⟨moved, reached, same, held, kept⟩ : ∃ moved,
      forward none (advanceOps top limit inRange ++
        (ringPushOps stack.capacity top live inRange notFull ++ ops)) machine =
      forward (some inRange) (ringPushOps stack.capacity top live inRange notFull ++ ops) moved ∧
      moved.ctx = machine.ctx ∧ moved.temp? top = some stack.advance.1.toUInt64 ∧
      KeepsOutside [top, limit] machine moved := by
    rcases forward_advanceOps onStack fits (Ne.symm topLimit) inRange
        (ringPushOps stack.capacity top live inRange notFull ++ ops) with
      ⟨moved, reached, same, held, kept⟩
    rw [reached, next]
    by_cases last : stack.top = stack.capacity
    · simp only [last, if_true]
      rw [forward_ringPushOps]
      exact ⟨_, rfl, same, temp?_bind_self _ _ _, kept.bind List.mem_cons_self _⟩
    · simp only [last, if_false]
      exact ⟨moved, rfl, same, held, kept⟩
  rcases forward_skip_ringPushOps (same ▸ onStack) fits policy top live inRange notFull ops with
    ⟨counted, went, noted, count, keptToo⟩
  refine ⟨counted, reached.trans went, ?_, ?_, count, ?_⟩
  · rw [noted, same]
  · rw [keptToo top (mt List.mem_singleton.1 topLive), held]
  · exact (kept.mono (by simp)).trans (keptToo.mono (by simp))

/-- The operations of a push on a ring push the frame. -/
theorem forward_pushWrap {ctx : Context} (agrees : machine.ctx = ctx.uncounted)
    (fits : Addressable ctx.shadow) (policy : ctx.shadow.policy = .wrap)
    (apart : [top, limit, live].Nodup) (inRange notFull : Label) (site : CallSite) :
    ∃ after,
      forward none (advanceOps top limit inRange ++
        ringPushOps ctx.shadow.capacity top live inRange notFull ++ storeFrameOps top site ++
        [.storeField .live live]) machine = (.ok .fallThrough, after) ∧
      after.ctx = (ctx.push site).state.uncounted ∧
      KeepsOutside [top, limit, live] machine after := by
  have onStack : machine.ctx.shadow = ctx.shadow := by rw [agrees]; rfl
  rcases forward_advance_ring onStack fits policy apart inRange notFull
      (storeFrameOps top site ++ [.storeField .live live]) with
    ⟨moved, reached, noted, held, count, kept⟩
  have stillOnStack : moved.ctx.shadow = ctx.shadow := by
    rw [noted]
    split <;> exact onStack
  have stored := forward_storeFrameOps stillOnStack fits.advance_lt fits.limit_lt held site
    [.storeField .live live]
  have pushed : (ctx.shadow.push site.frame).1 =
      { ctx.shadow.setEntry ctx.shadow.advance.1 site.frame with
        top := ctx.shadow.advance.1
        ringLive := if ctx.shadow.advance.2 then ctx.shadow.ringLive
          else ctx.shadow.ringLive + 1 } := by
    cases overflowed : ctx.shadow.advance.2 <;>
      simp [ShadowStack.push, ShadowStack.setEntry, policy, overflowed]
  have bounded : (if ctx.shadow.advance.2 then ctx.shadow.ringLive
      else ctx.shadow.ringLive + 1) ≤ ctx.shadow.capacity := by
    have live := (fits.wf.push site.frame).live_le
    have ring : (ctx.shadow.push site.frame).1.policy = .wrap := policy
    rw [ShadowStack.live_of_wrap ring, ShadowStack.capacity_push, pushed] at live
    exact live
  have word := toNat_toUInt64 (Nat.lt_of_le_of_lt bounded fits.capacity_lt)
  let placed := moved.mapShadow fun _ =>
    { ctx.shadow.setEntry ctx.shadow.advance.1 site.frame with top := ctx.shadow.advance.1 }
  have countToo : placed.temp? live = _ := count
  have capacity : placed.ctx.shadow.capacity = ctx.shadow.capacity :=
    congrArg (· - 1) (ShadowStack.limit_setEntry _ _ _)
  rw [List.append_assoc, List.append_assoc, reached, stored,
    forward_storeLive countToo (by rwa [word, capacity]), word]
  refine ⟨_, rfl, ?_, kept⟩
  rw [Context.state_push_uncounted, ← agrees, pushed]
  simp only [Machine.mapShadow, placed, noted]
  rfl

end

end TransferCache.Code
