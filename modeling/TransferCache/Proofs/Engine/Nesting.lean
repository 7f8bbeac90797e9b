import TransferCache.Proofs.Engine.Dominance
import TransferCache.Proofs.Engine.Protocols
import TransferCache.Proofs.Engine.Transparency

/-!
# Nested calls are predicted

A run is `Balanced` if every call in it is followed by its matching return, with calls nested to
some depth in between. If the stack admits that depth, each return of such a run finds the frame of
its own call on top, and goes where the caches say as soon as its block is registered. What lay
below stays where it was: of the frames that were live before the run, as many of the newest as the
stack still has room for below the deepest call are live after it.

* `Sound.predictsReturn`: a return whose frame is on top.
* `Ready.run_balanced`: balanced runs, by induction on how calls are nested.
* `run_nested`: the same for an engine just built.
-/

namespace TransferCache

/-! ## Balanced runs -/

/-- Neither a call nor a return nor a flush. -/
def Action.IsAside : Action → Prop
  | .register _ | .resolve _ | .jump _ => True
  | .call .. | .ret _ | .flushCode | .flushStack => False

/-- Calls and their matching returns, nested to exactly this depth, with other operations aside. -/
inductive Balanced : Nat → List Action → Prop
  | nil : Balanced 0 []
  | aside {depth : Nat} {action : Action} {actions : List Action} (apart : action.IsAside)
    (rest : Balanced depth actions) : Balanced depth (action :: actions)
  | nest {inner outer : Nat} {body rest : List Action} (site ret : GuestAddr)
    (within : Balanced inner body) (after : Balanced outer rest) :
    Balanced (max (inner + 1) outer) (.call site ret :: (body ++ .ret ret :: rest))

namespace OverflowPolicy

variable {policy : OverflowPolicy} {capacity live depth : Nat}

/-- On so many live frames, calls nested to this depth lose none of their own frames; and under the
reset policy, which would lose all of them at once, none at all. -/
def Admits (policy : OverflowPolicy) (capacity live depth : Nat) : Prop :=
  match policy with
  | .wrap => depth ≤ capacity
  | .reset => live + depth ≤ capacity

theorem Admits.depth_le (admits : policy.Admits capacity live depth) : depth ≤ capacity := by
  cases policy with
  | wrap => exact admits
  | reset => exact Nat.le_trans (Nat.le_add_left depth live) admits

/-- Fewer live frames and a smaller depth are admitted too. -/
theorem Admits.mono (admits : policy.Admits capacity live depth) {fewer less : Nat}
    (frames : fewer + less ≤ live + depth) (nested : less ≤ depth) :
    policy.Admits capacity fewer less := by
  cases policy with
  | wrap => exact Nat.le_trans nested admits
  | reset => exact Nat.le_trans frames admits

/-- A push that is admitted keeps all frames but those that would not fit. -/
theorem Admits.pushed_eq {frames : List Frame} (frame : Frame)
    (admits : policy.Admits capacity frames.length (depth + 1)) :
    policy.pushed capacity frame frames = frame :: frames.take (capacity - 1) := by
  have room := admits.depth_le
  obtain ⟨less, rfl⟩ : ∃ less, capacity = less + 1 := Nat.exists_eq_add_of_le' (by omega)
  cases policy with
  | wrap => exact List.take_succ_cons
  | reset =>
    have space : frames.length < less + 1 := by
      unfold Admits at admits
      omega
    have whole : frames.take (less + 1 - 1) = frames := List.take_of_length_le (by omega)
    rw [whole]
    exact if_pos space

end OverflowPolicy

namespace Engine

variable {κ : Type} {compile : Compile κ} {engine : Engine κ} {recent : List Block}

/-! ## Runs whose every operation is of a kind -/

/-- Every operation of a run is of this kind in the state that it meets. -/
def Throughout (compile : Compile κ) (kind : Engine κ → Action → Prop) :
    Engine κ → List Action → Prop
  | _, [] => True
  | engine, action :: actions =>
    kind engine action ∧ Throughout compile kind (step compile engine action).state actions

theorem throughout_append {kind : Engine κ → Action → Prop} {earlier later : List Action} :
    Throughout compile kind engine (earlier ++ later) ↔
      Throughout compile kind engine earlier ∧
        Throughout compile kind (run compile engine earlier).state later := by
  induction earlier generalizing engine with
  | nil => exact (and_iff_right trivial).symm
  | cons action actions ih => exact (and_congr_right' ih).trans and_assoc.symm

theorem runKeepsHosts_iff_throughout {actions : List Action} :
    RunKeepsHosts compile engine actions ↔ Throughout compile KeepsHosts engine actions := by
  induction actions generalizing engine with
  | nil => exact Iff.rfl
  | cons action actions ih => exact and_congr_right' ih

theorem Settled.run (settled : engine.Settled recent) {actions : List Action}
    (kept : RunKeepsHosts compile engine actions) :
    (run compile engine actions).state.Settled (recentOf compile engine recent actions) := by
  induction actions generalizing engine recent with
  | nil => exact settled
  | cons action actions ih => exact ih (settled.step kept.1) kept.2

/-! ## Calls -/

/-- A call succeeds, and its site, if it has been compiled, was compiled with this return address.
-/
def CallsAsCompiled (engine : Engine κ) : Action → Prop
  | .call site ret =>
    (∃ called, (engine.call site ret).value = .ok called) ∧
      ∀ known, engine.callSites.find? site = some known → known.ret = ret
  | .register _ | .resolve _ | .ret _ | .jump _ | .flushCode | .flushStack => True

/-- Such a call pushes a frame that expects the return address. -/
theorem frame_of_call {site ret : GuestAddr} (calls : engine.CallsAsCompiled (.call site ret)) :
    ∃ frame, frame.expected = ret ∧
      (engine.call site ret).state.ctx.shadow = (engine.ctx.shadow.push frame).1 := by
  obtain ⟨⟨called, succeeds⟩, compiledSo⟩ := calls
  obtain ⟨-, -, pushed⟩ := of_call succeeds
  exact ⟨called.frame, (ret_eq_iff_of_call succeeds).2 compiledSo, pushed⟩

/-! ## Returns -/

/-- A return finds its frame, and is predicted to go to its block if that is registered and has host
code. -/
def PredictsReturn (compile : Compile κ) (engine : Engine κ) : Action → Prop
  | .ret actual =>
    (engine.ctx.pop actual).value ≠ .mismatch ∧
      ∀ block, engine.registry.lookup actual = some block → block.host ≠ .unresolved →
        (ret compile engine actual).value = .ok (.predicted block.host)
  | .register _ | .resolve _ | .call .. | .jump _ | .flushCode | .flushStack => True

/-- A return whose frame is on top of the stack finds it. Its slot holds the registered host code,
since no other host code was ever registered for the address. -/
theorem Sound.predictsReturn (sound : engine.Sound recent) (settled : engine.Settled recent)
    (compile : Compile κ) {frame : Frame}
    (top : engine.ctx.shadow.frames.head? = some frame) :
    engine.PredictsReturn compile (.ret frame.expected) := by
  refine ⟨?_, ?_⟩
  · intro mismatched
    rcases Context.pop_cases sound.shadow_wf frame.expected with
      ⟨missed, -, -⟩ | ⟨_, -, -, -, -, value, -⟩ | ⟨_, -, -, -, -, value, -⟩
    · rw [top] at missed
      exact missed rfl
    · cases value.symm.trans mismatched
    · cases value.symm.trans mismatched
  · intro block registered hosted
    obtain ⟨site, compiled, owns⟩ := sound.frames frame (List.mem_of_mem_head? top)
    have returns : site.ret = frame.expected := congrArg Frame.expected owns.symm
    have slot : site.slot = frame.slot := congrArg Frame.slot owns.symm
    have known := sound.linking.resolved site compiled block (returns ▸ registered)
    have same : block = ⟨site.ret, engine.ctx.slots.value site.slot⟩ :=
      Option.some.inj ((returns ▸ registered).symm.trans (settled _ known))
    have held : engine.ctx.slots.value frame.slot = block.host := by
      rw [same, slot]
    exact (ret_predicted_iff compile engine frame.expected block.host).2
      ((Context.pop_hit_iff sound.shadow_wf frame.expected block.host).2
        ⟨hosted, frame, top, rfl, held⟩)

/-- It drops its frame. -/
theorem Sound.frames_ret (sound : engine.Sound recent) (compile : Compile κ) {frame : Frame}
    (top : engine.ctx.shadow.frames.head? = some frame) :
    (Engine.ret compile engine frame.expected).state.ctx.shadow.frames =
      engine.ctx.shadow.frames.tail := by
  have meets : engine.ctx.shadow.frames.head?.map Frame.expected = some frame.expected := by
    rw [top, Option.map_some]
  rw [shadow_ret, Context.shadow_pop sound.shadow_wf, if_pos meets, sound.shadow_wf.frames_pop]

/-! ## Balanced runs of an engine -/

/-- What is kept below a frame when the deepest frames above it have been popped again. -/
theorem take_cons_take {capacity inner : Nat} (frame : Frame) (frames : List Frame)
    (room : inner + 1 ≤ capacity) :
    (frame :: frames.take (capacity - 1)).take (capacity - inner) =
      frame :: frames.take (capacity - (inner + 1)) := by
  have below : capacity - inner = capacity - (inner + 1) + 1 := by omega
  rw [below, List.take_succ_cons, List.take_take]
  congr 2
  omega

theorem shadow_of_isAside (compile : Compile κ) (engine : Engine κ) {action : Action}
    (apart : action.IsAside) :
    (step compile engine action).state.ctx.shadow = engine.ctx.shadow := by
  cases action with
  | register block => rfl
  | resolve guest => exact shadow_resolve compile engine guest
  | jump target => exact shadow_jump compile engine target
  | call | ret | flushCode | flushStack => cases apart

theorem predictsReturn_of_isAside (compile : Compile κ) (engine : Engine κ) {action : Action}
    (apart : action.IsAside) : engine.PredictsReturn compile action := by
  cases action with
  | register | resolve | jump => trivial
  | call | ret | flushCode | flushStack => cases apart

/-- The run keeps host code, its calls succeed as their sites were compiled, and the stack admits
the depth to which they are nested. -/
structure Ready (compile : Compile κ) (engine : Engine κ) (depth : Nat) (actions : List Action) :
    Prop where
  settled : ∃ recent, engine.Sound recent ∧ engine.Settled recent
  kept : Throughout compile KeepsHosts engine actions
  calls : Throughout compile CallsAsCompiled engine actions
  admits : engine.ctx.shadow.policy.Admits engine.ctx.shadow.capacity
    engine.ctx.shadow.frames.length depth

namespace Ready

variable {depth inner outer : Nat} {site back : GuestAddr} {action : Action}
  {actions body rest : List Action}

/-- What goes aside leaves the stack as it is. -/
theorem aside (ready : Ready compile engine depth (action :: actions)) (apart : action.IsAside) :
    Ready compile (step compile engine action).state depth actions := by
  obtain ⟨⟨recent, sound, settled⟩, kept, calls, admits⟩ := ready
  refine ⟨⟨_, sound.step action, settled.step kept.1⟩, kept.2, calls.2, ?_⟩
  rwa [shadow_of_isAside compile engine apart]

/-- A call puts its frame on top, and what is nested in it may run. -/
theorem enter
    (ready : Ready compile engine (max (inner + 1) outer)
      (.call site back :: (body ++ .ret back :: rest))) :
    ∃ frame, frame.expected = back ∧
      (engine.call site back).state.ctx.shadow.frames =
        frame :: engine.ctx.shadow.frames.take (engine.ctx.shadow.capacity - 1) ∧
      Ready compile (engine.call site back).state inner body := by
  obtain ⟨⟨recent, sound, settled⟩, ⟨keptCall, kept⟩, ⟨callsSite, calls⟩, admits⟩ := ready
  have shallower : engine.ctx.shadow.policy.Admits engine.ctx.shadow.capacity
      engine.ctx.shadow.frames.length (inner + 1) := admits.mono (by omega) (by omega)
  obtain ⟨frame, expects, pushed⟩ := frame_of_call callsSite
  have entered : (engine.call site back).state.ctx.shadow.frames =
      frame :: engine.ctx.shadow.frames.take (engine.ctx.shadow.capacity - 1) := by
    rw [pushed, sound.shadow_wf.frames_push]
    exact shallower.pushed_eq frame
  have settledCall : (step compile engine (.call site back)).state.Settled _ :=
    settled.step keptCall
  refine ⟨frame, expects, entered, ⟨_, sound.call site back, settledCall⟩,
    (throughout_append.1 kept).1, (throughout_append.1 calls).1, ?_⟩
  have called := reaches_call engine site back
  rw [called.policy_eq, called.capacity_eq, entered, List.length_cons]
  exact shallower.mono (by rw [List.length_take]; omega) (by omega)

/-- Once its frame is on top again, the matching return finds it, and what follows may run. -/
theorem leave
    (ready : Ready compile engine (max (inner + 1) outer)
      (.call site back :: (body ++ .ret back :: rest)))
    {frame : Frame} (expects : frame.expected = back)
    (opened : (run compile (engine.call site back).state body).state.ctx.shadow.frames =
      frame :: engine.ctx.shadow.frames.take (engine.ctx.shadow.capacity - (inner + 1))) :
    let inside := (run compile (engine.call site back).state body).state
    PredictsReturn compile inside (.ret back) ∧
      (ret compile inside back).state.ctx.shadow.frames =
        engine.ctx.shadow.frames.take (engine.ctx.shadow.capacity - (inner + 1)) ∧
      Ready compile (ret compile inside back).state outer rest := by
  intro inside
  obtain ⟨⟨recent, sound, settled⟩, ⟨keptCall, kept⟩, ⟨-, calls⟩, admits⟩ := ready
  obtain ⟨keptBody, keptRet, keptRest⟩ := throughout_append.1 kept
  have soundInside : inside.Sound _ := (sound.call site back).run body
  have settledCall : (step compile engine (.call site back)).state.Settled _ :=
    settled.step keptCall
  have settledInside : inside.Settled _ :=
    settledCall.run (runKeepsHosts_iff_throughout.2 keptBody)
  have top := congrArg List.head? opened
  have closed : (ret compile inside back).state.ctx.shadow.frames =
      engine.ctx.shadow.frames.take (engine.ctx.shadow.capacity - (inner + 1)) := by
    rw [← expects, soundInside.frames_ret compile top, opened, List.tail_cons]
  refine ⟨expects ▸ soundInside.predictsReturn settledInside compile top, closed,
    ⟨_, soundInside.step (.ret back), settledInside.step keptRet⟩, keptRest,
    (throughout_append.1 calls).2.2, ?_⟩
  have returned := ((reaches_call engine site back).trans (reaches_run compile _ body)).trans
    (reaches_ret compile inside back)
  rw [returned.policy_eq, returned.capacity_eq, closed]
  exact admits.mono (by rw [List.length_take]; omega) (by omega)

end Ready

/-- Every return of a balanced run that the stack admits finds the frame of its call. What was live
before the run is live after it, as far as there is room for it below the deepest call. -/
theorem Ready.run_balanced {depth : Nat} {actions : List Action}
    (ready : Ready compile engine depth actions) (balanced : Balanced depth actions) :
    Throughout compile (PredictsReturn compile) engine actions ∧
      (Engine.run compile engine actions).state.ctx.shadow.frames =
        engine.ctx.shadow.frames.take (engine.ctx.shadow.capacity - depth) := by
  induction balanced generalizing engine with
  | nil =>
    obtain ⟨recent, sound, -⟩ := ready.settled
    have bounded : engine.ctx.shadow.frames.length ≤ engine.ctx.shadow.capacity - 0 := by
      rw [ShadowStack.length_frames]
      exact sound.shadow_wf.live_le
    exact ⟨trivial, (List.take_of_length_le bounded).symm⟩
  | @aside depth action actions apart rest ih =>
    obtain ⟨predicts, frames⟩ := ih (ready.aside apart)
    rw [shadow_of_isAside compile engine apart] at frames
    exact ⟨⟨predictsReturn_of_isAside compile engine apart, predicts⟩, frames⟩
  | @nest inner outer body rest site back within after ihBody ihRest =>
    have room : inner + 1 ≤ engine.ctx.shadow.capacity :=
      Nat.le_trans (Nat.le_max_left _ outer) ready.admits.depth_le
    have called := reaches_call engine site back
    -- The call and what is nested in it.
    obtain ⟨frame, expects, entered, readyBody⟩ := ready.enter
    obtain ⟨predictsBody, left⟩ := ihBody readyBody
    rw [called.capacity_eq, entered, take_cons_take frame _ room] at left
    -- The matching return and what follows it.
    obtain ⟨predictsRet, closed, readyRest⟩ := ready.leave expects left
    obtain ⟨predictsRest, kept⟩ := ihRest readyRest
    have returned := (called.trans (reaches_run compile _ body)).trans (reaches_ret compile _ back)
    rw [returned.capacity_eq, closed, List.take_take] at kept
    refine ⟨⟨trivial, throughout_append.2 ⟨predictsBody, predictsRet, predictsRest⟩⟩, ?_⟩
    have ends := state_run_append compile (engine.call site back).state body (.ret back :: rest)
    refine (congrArg (·.ctx.shadow.frames) ends).trans (kept.trans ?_)
    congr 1
    omega

/-! ## Engines just built -/

/-- However an engine was used after it was built, as long as no registration replaced a block by
one with different host code: a run of calls and matching returns nested to some depth, with
registrations that replace nothing, resolutions and jumps aside, and in which calls succeed with the
return addresses that their sites were compiled with. If the stack is a ring with room for the
depth, or has room for it above what is live, then every return of the run finds its frame and is
predicted to go to its block as soon as that is registered and has host code; and what is live
afterwards are the newest of the frames that were live before, as many as the deepest calls left
room for, which under the reset policy is all of them. -/
theorem run_nested {config : Config} {compiler : κ} {made : Outcome (Engine κ) Unit}
    (created : create config compiler = .ok made) {before actions : List Action} {depth : Nat}
    (keptBefore : RunKeepsHosts compile made.state before)
    (kept : RunKeepsHosts compile (run compile made.state before).state actions)
    (calls : Throughout compile CallsAsCompiled (run compile made.state before).state actions)
    (balanced : Balanced depth actions)
    (admits : config.overflow.Admits config.stackSize.toNat
      (run compile made.state before).state.ctx.shadow.live depth) :
    let engine := (run compile made.state before).state
    let after := (run compile engine actions).state
    Throughout compile (PredictsReturn compile) engine actions ∧
      after.ctx.shadow.frames = engine.ctx.shadow.frames.take
        (min engine.ctx.shadow.live (config.stackSize.toNat - depth)) ∧
      after.ctx.shadow.live = min engine.ctx.shadow.live (config.stackSize.toNat - depth) ∧
      (config.overflow = .reset → after.ctx.shadow.frames = engine.ctx.shadow.frames) := by
  intro engine after
  have reached := reaches_run compile made.state before
  have capacity : engine.ctx.shadow.capacity = config.stackSize.toNat := by
    rw [reached.capacity_eq, (of_create created).1]
    exact ShadowStack.capacity_ofCapacity _ _
  have policy : engine.ctx.shadow.policy = config.overflow := by
    rw [reached.policy_eq, (of_create created).1]
    rfl
  have sound : engine.Sound (recentOf compile made.state [] before) :=
    (sound_create created).run before
  have fresh : made.state.Settled [] := fun block member => nomatch member
  have ready : Ready compile engine depth actions := by
    refine ⟨⟨_, sound, fresh.run keptBefore⟩, runKeepsHosts_iff_throughout.1 kept, calls, ?_⟩
    rwa [capacity, policy, ShadowStack.length_frames]
  obtain ⟨predicts, frames⟩ := ready.run_balanced balanced
  rw [capacity] at frames
  have newest : after.ctx.shadow.frames = engine.ctx.shadow.frames.take
      (min engine.ctx.shadow.live (config.stackSize.toNat - depth)) := by
    rw [← ShadowStack.length_frames, Nat.min_comm, ← List.take_take, List.take_length]
    exact frames
  refine ⟨predicts, newest, ?_, ?_⟩
  · rw [← ShadowStack.length_frames after.ctx.shadow, newest, List.length_take,
      ShadowStack.length_frames]
    omega
  · intro resets
    rw [resets] at admits
    refine frames.trans (List.take_of_length_le ?_)
    rw [ShadowStack.length_frames]
    exact Nat.le_sub_of_add_le admits

/-- A call and its return, with a jump in between. -/
def returning : List Action := [.call ⟨1⟩ ⟨16⟩, .jump ⟨16⟩, .ret ⟨16⟩]

theorem balanced_returning : Balanced 1 returning :=
  have apart : (Action.jump ⟨16⟩).IsAside := trivial
  .nest ⟨1⟩ ⟨16⟩ (.aside apart .nil) .nil

/-- On a full ring of two frames, a third call overwrites the oldest of them. Its return is
predicted, and one frame is left. -/
theorem run_nested_returning :
    create { Config.smallest with stackSize := 2, overflow := .wrap } () =
        .ok ⟨(), roomier,
          [.contextCreated { Config.smallest with stackSize := 2, overflow := .wrap }]⟩ ∧
      (run .identical roomier recursing).state.ctx.shadow.live = 2 ∧
      (ret .identical (run .identical roomier
        (recursing ++ [.call ⟨1⟩ ⟨16⟩, .jump ⟨16⟩])).state ⟨16⟩).value = .ok (.predicted ⟨10⟩) ∧
      (run .identical (run .identical roomier recursing).state returning).state.ctx.shadow.live =
        1 := by
  have created : create { Config.smallest with stackSize := 2, overflow := .wrap } () =
      .ok ⟨(), roomier,
        [.contextCreated { Config.smallest with stackSize := 2, overflow := .wrap }]⟩ := rfl
  have keptBefore : RunKeepsHosts .identical roomier recursing :=
    ⟨(fun _ registered => nomatch registered), trivial, trivial, trivial⟩
  have kept : RunKeepsHosts .identical (run .identical roomier recursing).state returning :=
    ⟨trivial, trivial, trivial, trivial⟩
  have calls : Throughout .identical CallsAsCompiled (run .identical roomier recursing).state
      returning :=
    ⟨⟨⟨_, rfl⟩, fun known found => Option.some.inj found ▸ rfl⟩, trivial, trivial, trivial⟩
  have admits : OverflowPolicy.wrap.Admits (2 : UInt64).toNat
      (run .identical roomier recursing).state.ctx.shadow.live 1 := by
    unfold OverflowPolicy.Admits
    decide
  obtain ⟨⟨-, -, ⟨-, predicts⟩, -⟩, -, live, -⟩ :=
    run_nested created keptBefore kept calls balanced_returning admits
  exact ⟨created, rfl, predicts ⟨⟨16⟩, ⟨10⟩⟩ rfl (by decide), live⟩

end Engine

end TransferCache
