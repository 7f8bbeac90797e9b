import TransferCache.Proofs.Context.Aged
import TransferCache.Proofs.Engine.Protocols
import TransferCache.Proofs.Engine.Sound

/-!
# A flush of the code makes an engine new

An engine whose code is flushed is an engine just built that has been aged (`Context.aged`): its
stack keeps old frames in storage, its counts go on, and its compiler is in the state it has come
to. Ageing is kept by every operation and shows in no answer and no event, so the two engines can
never be told apart.

* `state_flushCode`: what a flush of the code leaves.
* `step_aged`, `run_aged`: operations on an engine that has been aged.
* `run_flushCode`: a flushed engine against one just built.
-/

namespace TransferCache.Engine

variable {κ : Type} {compile : Compile κ} {engine : Engine κ} {stack : ShadowStack}

/-! ## Aged engines -/

/-- The engine with a used stack in place of its own, and counts that go on from earlier ones. -/
def aged (stack : ShadowStack) (earlier : Stats) (engine : Engine κ) : Engine κ :=
  engine.viewed (Context.aged stack earlier)

theorem jump_aged (stack : ShadowStack) (earlier : Stats) (compile : Compile κ)
    (engine : Engine κ) (target : GuestAddr) :
    jump compile (engine.aged stack earlier) target =
      (jump compile engine target).within (aged stack earlier) :=
  jump_viewed (Context.lookupTarget_aged stack earlier) (Context.completeLinks_aged stack earlier)
    (Context.updateTarget_aged stack earlier) (fun _ => rfl) compile engine target

theorem call_aged (same : stack.SameFrames engine.ctx.shadow) (earlier : Stats)
    (site ret : GuestAddr) :
    ∃ after, after.SameFrames (engine.call site ret).state.ctx.shadow ∧
      (engine.aged stack earlier).call site ret =
        (engine.call site ret).within (aged after earlier) := by
  have pushes : ∀ (ctx : Context) (called : CallSite), ctx.shadow = engine.ctx.shadow →
      (ctx.aged stack earlier).push called =
        (ctx.push called).within (Context.aged (stack.push called.frame).1 earlier) := by
    intro ctx called unchanged
    rw [← unchanged] at same
    exact Context.push_aged same earlier called
  have shadow := shadow_call engine site ret
  rcases call_viewed site ret
    (Context.prepare_aged stack earlier engine.ctx engine.registry ret) pushes with
      ⟨fault, value, refused⟩ | ⟨called, value, ran⟩
  · refine ⟨stack, ?_, refused⟩
    rcases shadow with ⟨_, -, unchanged⟩ | ⟨_, went, -⟩
    · rwa [unchanged]
    · cases value.symm.trans went
  · refine ⟨(stack.push called.frame).1, ?_, ran⟩
    rcases shadow with ⟨_, failed, -⟩ | ⟨_, went, pushed⟩
    · cases value.symm.trans failed
    · cases value.symm.trans went
      rw [pushed]
      exact (same.push called.frame).1

theorem ret_aged (same : stack.SameFrames engine.ctx.shadow) (earlier : Stats)
    (compile : Compile κ) (actual : GuestAddr) :
    ∃ after, after.SameFrames (ret compile engine actual).state.ctx.shadow ∧
      ret compile (engine.aged stack earlier) actual =
        (ret compile engine actual).within (aged after earlier) := by
  obtain ⟨after, kept, pops⟩ := Context.pop_aged same earlier actual
  refine ⟨after, ?_, ret_viewed pops (Context.completeLinks_aged after earlier) compile⟩
  rwa [shadow_ret]

theorem flushStack_aged (stack : ShadowStack) (earlier : Stats) (engine : Engine κ) :
    (engine.aged stack earlier).flushStack =
      engine.flushStack.within (aged stack.flush earlier) :=
  congrArg (Outcome.within engine.withContext) (Context.flushStack_aged stack earlier engine.ctx)

theorem flushCode_aged (stack : ShadowStack) (earlier : Stats) (engine : Engine κ) :
    (engine.aged stack earlier).flushCode = engine.flushCode.within (aged stack.flush earlier) :=
  congrArg (Outcome.within fun ctx => (⟨.empty, ctx, .empty, engine.compiler⟩ : Engine κ))
    (Context.reset_aged stack earlier engine.ctx)

/-- An operation on an engine that has been aged answers as it does on the engine, and leaves an
engine that has been aged. -/
theorem step_aged (same : stack.SameFrames engine.ctx.shadow) (earlier : Stats)
    (compile : Compile κ) (action : Action) :
    ∃ after, after.SameFrames (step compile engine action).state.ctx.shadow ∧
      step compile (engine.aged stack earlier) action =
        (step compile engine action).within (aged after earlier) := by
  cases action with
  | register block =>
    exact ⟨stack, same, congrArg (Outcome.map _)
      (register_viewed (Context.completeLinks_aged stack earlier) engine block)⟩
  | resolve guest =>
    refine ⟨stack, ?_, ?_⟩
    · change stack.SameFrames (resolve compile engine guest).state.ctx.shadow
      rwa [shadow_resolve]
    · exact congrArg (Outcome.map _)
        (resolve_viewed (Context.completeLinks_aged stack earlier) compile engine guest)
  | call site ret =>
    obtain ⟨after, kept, called⟩ := call_aged same earlier site ret
    exact ⟨after, kept, congrArg (Outcome.map _) called⟩
  | ret actual =>
    obtain ⟨after, kept, returned⟩ := ret_aged same earlier compile actual
    exact ⟨after, kept, congrArg (Outcome.map _) returned⟩
  | jump target =>
    refine ⟨stack, ?_, congrArg (Outcome.map _) (jump_aged stack earlier compile engine target)⟩
    change stack.SameFrames (jump compile engine target).state.ctx.shadow
    rwa [shadow_jump]
  | flushCode =>
    exact ⟨stack.flush, same.flush,
      congrArg (Outcome.map fun _ => Answer.done) (flushCode_aged stack earlier engine)⟩
  | flushStack =>
    exact ⟨stack.flush, same.flush,
      congrArg (Outcome.map fun _ => Answer.done) (flushStack_aged stack earlier engine)⟩

theorem run_aged (same : stack.SameFrames engine.ctx.shadow) (earlier : Stats)
    (compile : Compile κ) (actions : List Action) :
    ∃ after, after.SameFrames (run compile engine actions).state.ctx.shadow ∧
      run compile (engine.aged stack earlier) actions =
        (run compile engine actions).within (aged after earlier) := by
  induction actions generalizing engine stack with
  | nil => exact ⟨stack, same, rfl⟩
  | cons action actions ih =>
    obtain ⟨middle, kept, stepped⟩ := step_aged same earlier compile action
    obtain ⟨after, last, ran⟩ := ih kept
    refine ⟨after, last, ?_⟩
    unfold run
    rw [stepped]
    apply Outcome.andThen_within
    rw [ran]
    rfl

/-! ## What can be observed -/

/-- Nothing that can be observed tells the engine from the other, and its counts are those of the
other on top of earlier ones. -/
structure LooksLike (engine other : Engine κ) (earlier : Stats) : Prop where
  registry_eq : engine.registry = other.registry
  callSites_eq : engine.callSites = other.callSites
  compiler_eq : engine.compiler = other.compiler
  top_eq : engine.ctx.shadow.top = other.ctx.shadow.top
  live_eq : engine.ctx.shadow.live = other.ctx.shadow.live
  isEmpty_eq : engine.ctx.shadow.isEmpty = other.ctx.shadow.isEmpty
  peek_eq : engine.ctx.shadow.peek = other.ctx.shadow.peek
  frames_eq : engine.ctx.shadow.frames = other.ctx.shadow.frames
  slots_eq : engine.ctx.slots = other.ctx.slots
  links_eq : engine.ctx.links = other.ctx.links
  targets_eq : engine.ctx.targets = other.ctx.targets
  updatePending_eq : engine.ctx.updatePending = other.ctx.updatePending
  stub_eq : engine.ctx.stub = other.ctx.stub
  stats_eq : engine.ctx.stats = earlier.plus other.ctx.stats

theorem looksLike_aged (same : stack.SameFrames engine.ctx.shadow) (earlier : Stats) :
    (engine.aged stack earlier).LooksLike engine earlier where
  registry_eq := rfl
  callSites_eq := rfl
  compiler_eq := rfl
  top_eq := same.alike.top_eq
  live_eq := same.live_eq
  isEmpty_eq := same.isEmpty_eq
  peek_eq := same.peek_eq
  frames_eq := same.frames_eq
  slots_eq := rfl
  links_eq := rfl
  targets_eq := rfl
  updatePending_eq := rfl
  stub_eq := rfl
  stats_eq := rfl

/-! ## Engines just built -/

/-- Whether an engine is built does not depend on its compiler. -/
theorem exists_create {config : Config} {compiler : κ} {made : Outcome (Engine κ) Unit}
    (created : create config compiler = .ok made) (other : κ) :
    ∃ again, create config other = .ok again := by
  unfold create at created ⊢
  cases built : Context.create config with
  | error fault =>
    rw [built] at created
    cases created
  | ok ctx => exact ⟨_, rfl⟩

/-- However an engine is used, its context keeps the sizes and the switches it was created with. -/
theorem blank_run {config : Config} {compiler : κ} {made : Outcome (Engine κ) Unit}
    (created : create config compiler = .ok made) (compile : Compile κ) (actions : List Action) :
    (run compile made.state actions).state.ctx.blank = Context.ofConfig config := by
  rw [(reaches_run compile made.state actions).blank_eq, (of_create created).1,
    Context.blank_ofConfig]

/-- A flush of the code leaves an engine just built, aged. -/
theorem state_flushCode (engine : Engine κ) :
    engine.flushCode.state =
      (⟨.empty, engine.ctx.blank, .empty, engine.compiler⟩ : Engine κ).aged
        engine.ctx.shadow.flush engine.ctx.stats :=
  congrArg (Engine.mk .empty · .empty engine.compiler) engine.ctx.state_reset

/-- However an engine was used before its code is flushed, it cannot be told afterwards from an
engine just built with the same configuration and with a compiler in the same state: any operations
are answered alike and log the same events, and whatever can be observed after them is the same, but
for the counts, which go on from those before the flush. -/
theorem run_flushCode {config : Config} {compiler : κ} {made : Outcome (Engine κ) Unit}
    (created : create config compiler = .ok made) (compile : Compile κ) (actions : List Action) :
    let engine := (run compile made.state actions).state
    let flushed := engine.flushCode.state
    ∃ fresh, create config flushed.compiler = .ok fresh ∧
      ∀ later,
        (run compile flushed later).value = (run compile fresh.state later).value ∧
        (run compile flushed later).events = (run compile fresh.state later).events ∧
        (run compile flushed later).state.LooksLike (run compile fresh.state later).state
          flushed.ctx.stats := by
  intro engine flushed
  have sound : engine.Sound (recentOf compile made.state [] actions) :=
    (sound_create created).run actions
  have blank : engine.ctx.blank = Context.ofConfig config := blank_run created compile actions
  obtain ⟨fresh, recreated⟩ := exists_create created flushed.compiler
  have start : fresh.state = ⟨.empty, engine.ctx.blank, .empty, engine.compiler⟩ := by
    rw [(of_create recreated).1, blank]
    rfl
  have same : engine.ctx.shadow.flush.SameFrames fresh.state.ctx.shadow := by
    rw [start]
    exact sound.shadow_wf.flush_sameFrames_blank
  have renewed : flushed = fresh.state.aged engine.ctx.shadow.flush engine.ctx.stats := by
    rw [start]
    exact engine.state_flushCode
  refine ⟨fresh, recreated, fun later => ?_⟩
  obtain ⟨after, kept, ran⟩ := run_aged same engine.ctx.stats compile later
  have counts : flushed.ctx.stats = engine.ctx.stats := rfl
  rw [counts, renewed, ran]
  exact ⟨rfl, rfl, looksLike_aged kept engine.ctx.stats⟩

/-- A block is called from and jumped to. -/
def calling : List Action :=
  [.register ⟨⟨16⟩, ⟨10⟩⟩, .call ⟨1⟩ ⟨16⟩, .jump ⟨16⟩]

/-- The frame of the call is still in storage after the flush, and neither a return nor a jump nor
the next call site meets anything of the engine before it. -/
theorem run_flushCode_calling :
    create .smallest () = .ok ⟨(), smallest, [.contextCreated .smallest]⟩ ∧
      (run .identical smallest calling).state.flushCode.state.ctx.shadow.entries =
        #[.base, ⟨⟨16⟩, ⟨0⟩⟩] ∧
      (run .identical (run .identical smallest calling).state.flushCode.state
        [.ret ⟨16⟩, .call ⟨1⟩ ⟨32⟩]).value =
          (run .identical smallest [.ret ⟨16⟩, .call ⟨1⟩ ⟨32⟩]).value ∧
      (run .identical (run .identical smallest calling).state.flushCode.state
        [.ret ⟨16⟩, .call ⟨1⟩ ⟨32⟩]).state.ctx.slots =
          (run .identical smallest [.ret ⟨16⟩, .call ⟨1⟩ ⟨32⟩]).state.ctx.slots := by
  obtain ⟨fresh, recreated, agree⟩ := run_flushCode create_smallest .identical calling
  cases create_smallest.symm.trans recreated
  obtain ⟨answers, -, looks⟩ := agree [.ret ⟨16⟩, .call ⟨1⟩ ⟨32⟩]
  exact ⟨create_smallest, rfl, answers, looks.slots_eq⟩

end TransferCache.Engine
