import TransferCache.Code.Emit
import TransferCache.Proofs.Engine.Enlargement
import TransferCache.Proofs.Engine.JumpPrediction

/-!
# What failed operations leave behind

A call fails on the last slot, and the transfers and the slow path fail on a block that nobody has.
Each fails at a point where some of its work is done already: a pop or a lookup has run, an update
is pending, the compiler has been asked. The statements here give the whole state that is left.

* `call_of_full`, `Builder.emitPush_of_full`: without a slot left nothing happens at all.
* `resolve_error_iff`, `ret_error_iff`, `jump_error_iff`: these fail exactly on an address without
  a block that the compiler declines. Nothing that a cache knows is such an address.
* `state_resolve_of_error`, `state_ret_of_error`, `state_jump_of_error`: what they leave.
* `asked_resolve_of_error`, `asked_ret_of_error`, `asked_jump_of_error`: the compiler was asked
  once.
* `run_failsCleanly`: all of it for every engine that runs lead to.
-/

namespace TransferCache

namespace Context

/-! ## Without a slot left -/

theorem prepare_of_full {ctx : Context} (full : ctx.slots.capacity ≤ ctx.slots.allocated)
    (registry : Registry) (ret : GuestAddr) :
    ctx.prepare registry ret =
      ⟨.error ⟨ctx.slots.capacity⟩, ctx, [.slotsExhausted ctx.slots.capacity]⟩ := by
  unfold prepare
  rw [SlotArray.alloc_of_le full]

theorem prepare_error_iff (ctx : Context) (registry : Registry) (ret : GuestAddr)
    (fault : SlotsExhausted) :
    (ctx.prepare registry ret).value = .error fault ↔
      ctx.slots.capacity ≤ ctx.slots.allocated ∧ fault = ⟨ctx.slots.capacity⟩ := by
  rcases ctx.prepare_cases registry ret with
    ⟨full, value, -⟩ | ⟨room, _, _, -, value, -⟩ | ⟨room, -, value, -⟩
  · rw [value]
    exact ⟨fun refused => ⟨full, (Except.error.inj refused).symm⟩,
      fun ⟨_, same⟩ => congrArg _ same.symm⟩
  · rw [value]
    exact iff_of_false nofun fun ⟨full, _⟩ => Nat.not_le_of_lt room full
  · rw [value]
    exact iff_of_false nofun fun ⟨full, _⟩ => Nat.not_le_of_lt room full

/-! ## Without a prediction -/

/-- The context that a lookup in vain leaves. -/
def afterMiss (ctx : Context) : Context :=
  { ctx with
    updatePending := true
    stats := { ctx.stats with targetMisses := ctx.stats.targetMisses + 1 } }

/-- The context that a return without a prediction leaves: the newest frame is gone exactly if it
expects the actual address. -/
def afterUnpredicted (ctx : Context) (actual : GuestAddr) : Context :=
  if ctx.shadow.frames.head?.map Frame.expected = some actual then
    { ctx with
      shadow := ctx.shadow.pop
      stats := { ctx.stats with shadowUnresolved := ctx.stats.shadowUnresolved + 1 } }
  else
    { ctx with stats := { ctx.stats with shadowMismatches := ctx.stats.shadowMismatches + 1 } }

theorem state_pop_of_ne_hit {ctx : Context} (wf : ctx.shadow.WellFormed) {actual : GuestAddr}
    (missed : ∀ host, (ctx.pop actual).value ≠ .hit host) :
    (ctx.pop actual).state = ctx.afterUnpredicted actual := by
  unfold afterUnpredicted
  rcases pop_cases wf actual with
    ⟨other, -, state⟩ | ⟨_, -, top, expected, -, -, state⟩ | ⟨_, -, -, -, -, hit, -⟩
  · rw [state, if_neg other]
  · rw [state, top, Option.map_some, expected, if_pos rfl]
  · exact absurd hit (missed _)

/-- A newest frame that expects the actual address and still predicts nothing has an unresolved
slot, and it is the only frame that goes. -/
theorem exists_frames_eq_cons_of_ne_hit {ctx : Context} (wf : ctx.shadow.WellFormed)
    {actual : GuestAddr} (missed : ∀ host, (ctx.pop actual).value ≠ .hit host)
    (matched : ctx.shadow.frames.head?.map Frame.expected = some actual) :
    ∃ frame rest, ctx.shadow.frames = frame :: rest ∧ frame.expected = actual ∧
      ctx.slots.value frame.slot = .unresolved ∧
      (ctx.afterUnpredicted actual).shadow.frames = rest := by
  have popped : (ctx.afterUnpredicted actual).shadow.frames = ctx.shadow.frames.tail := by
    unfold afterUnpredicted
    rw [if_pos matched]
    exact wf.frames_pop
  rcases pop_cases wf actual with
    ⟨other, -, -⟩ | ⟨frame, -, top, expected, vacant, -, -⟩ | ⟨_, -, -, -, -, hit, -⟩
  · exact absurd matched other
  · obtain ⟨rest, frames⟩ := List.head?_eq_some_iff.1 top
    refine ⟨frame, rest, frames, expected, vacant, ?_⟩
    rw [popped, frames, List.tail_cons]
  · exact absurd hit (missed _)

end Context

/-- A block is emitted as it was if no slot is left for its call site. -/
theorem Code.Builder.emitPush_of_full (builder : Builder) {ctx : Context}
    (full : ctx.slots.capacity ≤ ctx.slots.allocated) (registry : Registry) (ret : GuestAddr) :
    builder.emitPush ctx registry ret =
      ⟨.error ⟨ctx.slots.capacity⟩, (ctx, builder), [.slotsExhausted ctx.slots.capacity]⟩ := by
  unfold emitPush
  rw [Context.prepare_of_full full]
  rfl

namespace Engine

variable {κ : Type} {compile : Compile κ} {engine : Engine κ} {recent : List Block}

/-! ## Calls -/

/-- A new call site without a slot left changes nothing and is refused whatever is registered. -/
theorem call_of_full {site : GuestAddr} (new : engine.callSites.find? site = none)
    (full : engine.ctx.slots.capacity ≤ engine.ctx.slots.allocated) (ret : GuestAddr) :
    engine.call site ret =
      ⟨.error ⟨engine.ctx.slots.capacity⟩, engine,
        [.slotsExhausted engine.ctx.slots.capacity]⟩ := by
  unfold call
  rw [new, Context.prepare_of_full full]
  rfl

theorem call_error_iff (engine : Engine κ) (site ret : GuestAddr) (fault : SlotsExhausted) :
    (engine.call site ret).value = .error fault ↔
      engine.callSites.find? site = none ∧
        (engine.ctx.prepare engine.registry ret).value = .error fault := by
  rcases engine.call_cases site ret with
    ⟨known, found, called⟩ | ⟨other, new, refused, value, -⟩ | ⟨fresh, new, prepared, value, -⟩
  · rw [called, found]
    exact iff_of_false nofun fun ⟨new, _⟩ => nomatch new
  · rw [value, refused]
    exact ⟨fun same => ⟨new, same⟩, And.right⟩
  · rw [value, prepared]
    exact iff_of_false nofun fun ⟨_, refused⟩ => nomatch refused

/-! ## The slow path -/

/-- The engine once its compiler has been asked for one block, and declined it. -/
def afterRequest (compile : Compile κ) (engine : Engine κ) (guest : GuestAddr) : Engine κ :=
  { engine with compiler := (compile engine.compiler guest).2 }

/-- No block is registered for the address, and the compiler declines to make one. -/
def Unobtainable (compile : Compile κ) (engine : Engine κ) (guest : GuestAddr) : Prop :=
  engine.registry.lookup guest = none ∧ (compile engine.compiler guest).1 = none

theorem resolve_error_iff (compile : Compile κ) (engine : Engine κ) (guest : GuestAddr)
    (fault : UnknownBlock) :
    (resolve compile engine guest).value = .error fault ↔
      engine.Unobtainable compile guest ∧ fault = ⟨guest⟩ := by
  unfold Unobtainable
  rcases resolve_cases compile engine guest with
    ⟨_, found, value, -⟩ | ⟨unregistered, declined, value, -⟩ | ⟨_, -, compiled, value, -⟩
  · rw [value, found]
    exact iff_of_false nofun fun ⟨⟨unregistered, _⟩, _⟩ => nomatch unregistered
  · rw [value]
    exact ⟨fun failed => ⟨⟨unregistered, declined⟩, (Except.error.inj failed).symm⟩,
      fun ⟨_, same⟩ => congrArg _ same.symm⟩
  · rw [value, compiled]
    exact iff_of_false nofun fun ⟨⟨_, declined⟩, _⟩ => nomatch declined

theorem state_resolve_of_error {guest : GuestAddr} {fault : UnknownBlock}
    (failed : (resolve compile engine guest).value = .error fault) :
    (resolve compile engine guest).state = engine.afterRequest compile guest := by
  rcases resolve_cases compile engine guest with
    ⟨_, -, value, -⟩ | ⟨-, -, -, state⟩ | ⟨_, -, -, value, -⟩
  · cases value.symm.trans failed
  · exact state
  · cases value.symm.trans failed

/-! ## Returns -/

/-- A return fails exactly if its pop does not hit and the slow path fails after that. -/
theorem ret_error_iff_resolve (compile : Compile κ) (engine : Engine κ) (actual : GuestAddr)
    (fault : UnknownBlock) :
    (ret compile engine actual).value = .error fault ↔
      (∀ host, (engine.ctx.pop actual).value ≠ .hit host) ∧
        (resolve compile (engine.withContext (engine.ctx.pop actual).state) actual).value =
          .error fault := by
  rcases ret_cases compile engine actual with ⟨host, hit, value, -⟩ | ⟨missed, value, -⟩
  · rw [value]
    exact iff_of_false nofun fun ⟨missed, _⟩ => missed host hit
  · rw [value]
    cases (resolve compile (engine.withContext (engine.ctx.pop actual).state) actual).value with
    | error other =>
      exact ⟨fun same => ⟨missed, congrArg _ (Except.error.inj same)⟩,
        fun ⟨_, same⟩ => congrArg _ (Except.error.inj same)⟩
    | ok block => exact iff_of_false nofun fun ⟨_, failed⟩ => nomatch failed

/-- An address that a pop predicts has a block, so the slow path alone decides. -/
theorem Sound.ret_error_iff (sound : engine.Sound recent) (actual : GuestAddr)
    (fault : UnknownBlock) :
    (Engine.ret compile engine actual).value = .error fault ↔
      engine.Unobtainable compile actual ∧ fault = ⟨actual⟩ := by
  rw [ret_error_iff_resolve, resolve_error_iff]
  constructor
  · exact And.right
  · intro failed
    refine ⟨fun host hit => ?_, failed⟩
    exact sound.recent_registered _ (sound.recent_of_hit hit).1 failed.1.1

theorem Sound.state_ret_of_error (sound : engine.Sound recent) {actual : GuestAddr}
    {fault : UnknownBlock} (failed : (Engine.ret compile engine actual).value = .error fault) :
    (Engine.ret compile engine actual).state =
      (engine.afterRequest compile actual).withContext (engine.ctx.afterUnpredicted actual) := by
  obtain ⟨missed, slow⟩ := (ret_error_iff_resolve compile engine actual fault).1 failed
  rcases ret_cases compile engine actual with ⟨host, hit, -, -⟩ | ⟨-, -, state⟩
  · exact absurd hit (missed host)
  · rw [state, state_resolve_of_error slow, Context.state_pop_of_ne_hit sound.shadow_wf missed]
    rfl

/-! ## Jumps -/

/-- A jump fails exactly if it takes the slow path after its lookup and that fails. -/
theorem jump_error_iff_resolve (compile : Compile κ) (engine : Engine κ) (target : GuestAddr)
    (fault : UnknownBlock) :
    (jump compile engine target).value = .error fault ↔
      (engine.ctx.lookupTarget target).state.updatePending = true ∧
        (resolve compile (engine.withContext (engine.ctx.lookupTarget target).state) target).value =
          .error fault := by
  rcases jump_cases compile engine target with
    ⟨settled, value, -⟩ | ⟨pending, _, rfl, ⟨other, slow, value, -⟩ | ⟨_, slow, value, -⟩⟩
  · rw [value, settled]
    exact iff_of_false nofun fun ⟨pending, _⟩ => nomatch pending
  · rw [value, slow]
    exact ⟨fun same => ⟨pending, congrArg _ (Except.error.inj same)⟩,
      fun ⟨_, same⟩ => congrArg _ (Except.error.inj same)⟩
  · rw [value, slow]
    exact iff_of_false nofun fun ⟨_, failed⟩ => nomatch failed

/-- A cached target has a block, and an update that is still pending only leads to that block. So a
lookup for an address that cannot be had always misses. -/
theorem Sound.state_lookupTarget_of_unobtainable (sound : engine.Sound recent) {target : GuestAddr}
    (unobtainable : engine.Unobtainable compile target) :
    (engine.ctx.lookupTarget target).state = engine.ctx.afterMiss := by
  rcases engine.ctx.lookupTarget_cases target with ⟨host, found, -, -⟩ | ⟨-, -, state⟩
  · have registered := sound.recent_registered _ (sound.targets target host found)
    exact absurd unobtainable.1 registered
  · exact state

theorem Sound.jump_error_iff (sound : engine.Sound recent) (target : GuestAddr)
    (fault : UnknownBlock) :
    (Engine.jump compile engine target).value = .error fault ↔
      engine.Unobtainable compile target ∧ fault = ⟨target⟩ := by
  rw [jump_error_iff_resolve, resolve_error_iff]
  constructor
  · exact And.right
  · intro failed
    refine ⟨?_, failed⟩
    rw [sound.state_lookupTarget_of_unobtainable failed.1]
    rfl

theorem Sound.state_jump_of_error (sound : engine.Sound recent) {target : GuestAddr}
    {fault : UnknownBlock} (failed : (Engine.jump compile engine target).value = .error fault) :
    (Engine.jump compile engine target).state =
      (engine.afterRequest compile target).withContext engine.ctx.afterMiss := by
  have unobtainable := ((sound.jump_error_iff target fault).1 failed).1
  rcases jump_cases compile engine target with
    ⟨-, value, -⟩ | ⟨-, _, rfl, ⟨other, slow, -, state⟩ | ⟨_, -, value, -⟩⟩
  · cases value.symm.trans failed
  · rw [state, state_resolve_of_error slow, sound.state_lookupTarget_of_unobtainable unobtainable]
    rfl
  · cases value.symm.trans failed

/-! ## Requests to the compiler -/

/-- A compiler that remembers what it is asked declines the same addresses. -/
theorem unobtainable_recorded (compile : Compile κ) (engine : Engine κ) (guest : GuestAddr) :
    engine.recorded.Unobtainable compile.recorded guest ↔ engine.Unobtainable compile guest :=
  Iff.rfl

theorem asked_resolve_of_error {guest : GuestAddr} {fault : UnknownBlock}
    (failed : (resolve compile engine guest).value = .error fault) :
    asked compile engine [.resolve guest] = [guest] := by
  rw [resolve_error_iff, ← unobtainable_recorded, ← resolve_error_iff] at failed
  have state := state_resolve_of_error failed
  exact congrArg (fun after => after.compiler.2) state

theorem Sound.asked_ret_of_error (sound : engine.Sound recent) {actual : GuestAddr}
    {fault : UnknownBlock} (failed : (Engine.ret compile engine actual).value = .error fault) :
    asked compile engine [.ret actual] = [actual] := by
  rw [sound.ret_error_iff, ← unobtainable_recorded, ← sound.recorded.ret_error_iff] at failed
  have state := sound.recorded.state_ret_of_error failed
  exact congrArg (fun after => after.compiler.2) state

theorem Sound.asked_jump_of_error (sound : engine.Sound recent) {target : GuestAddr}
    {fault : UnknownBlock} (failed : (Engine.jump compile engine target).value = .error fault) :
    asked compile engine [.jump target] = [target] := by
  rw [sound.jump_error_iff, ← unobtainable_recorded, ← sound.recorded.jump_error_iff] at failed
  have state := sound.recorded.state_jump_of_error failed
  exact congrArg (fun after => after.compiler.2) state

/-! ## Runs -/

/-- What each operation that can fail leaves of this engine when it does, and when it does. -/
structure FailsCleanly (compile : Compile κ) (engine : Engine κ) : Prop where
  call_error : ∀ site ret fault, (engine.call site ret).value = .error fault ↔
    engine.callSites.find? site = none ∧ engine.ctx.slots.allocated = engine.ctx.slots.capacity ∧
      fault = ⟨engine.ctx.slots.capacity⟩
  /-- Nothing changes, and no other registry would have made a difference. -/
  call_outcome : ∀ site ret fault, (engine.call site ret).value = .error fault →
    ∀ registry, { engine with registry }.call site ret =
      ⟨.error fault, { engine with registry }, [.slotsExhausted fault.capacity]⟩
  emitPush_error : ∀ (builder : Code.Builder) registry ret fault,
    (builder.emitPush engine.ctx registry ret).value = .error fault ↔
      engine.ctx.slots.allocated = engine.ctx.slots.capacity ∧
        fault = ⟨engine.ctx.slots.capacity⟩
  emitPush_outcome : ∀ (builder : Code.Builder) registry ret fault,
    (builder.emitPush engine.ctx registry ret).value = .error fault →
      builder.emitPush engine.ctx registry ret =
        ⟨.error fault, (engine.ctx, builder), [.slotsExhausted fault.capacity]⟩
  resolve_error : ∀ guest fault, (resolve compile engine guest).value = .error fault ↔
    engine.Unobtainable compile guest ∧ fault = ⟨guest⟩
  resolve_state : ∀ guest fault, (resolve compile engine guest).value = .error fault →
    (resolve compile engine guest).state = engine.afterRequest compile guest ∧
      asked compile engine [.resolve guest] = [guest]
  ret_error : ∀ actual fault, (ret compile engine actual).value = .error fault ↔
    engine.Unobtainable compile actual ∧ fault = ⟨actual⟩
  ret_state : ∀ actual fault, (ret compile engine actual).value = .error fault →
    (ret compile engine actual).state =
        (engine.afterRequest compile actual).withContext (engine.ctx.afterUnpredicted actual) ∧
      asked compile engine [.ret actual] = [actual]
  /-- A popped frame is the newest one, and its slot was not filled. -/
  ret_popped : ∀ actual fault, (ret compile engine actual).value = .error fault →
    engine.ctx.shadow.frames.head?.map Frame.expected = some actual →
      ∃ frame rest, engine.ctx.shadow.frames = frame :: rest ∧ frame.expected = actual ∧
        engine.ctx.slots.value frame.slot = .unresolved ∧
        (ret compile engine actual).state.ctx.shadow.frames = rest
  jump_error : ∀ target fault, (jump compile engine target).value = .error fault ↔
    engine.Unobtainable compile target ∧ fault = ⟨target⟩
  jump_state : ∀ target fault, (jump compile engine target).value = .error fault →
    (jump compile engine target).state =
        (engine.afterRequest compile target).withContext engine.ctx.afterMiss ∧
      asked compile engine [.jump target] = [target]

theorem Sound.failsCleanly (sound : engine.Sound recent) (compile : Compile κ) :
    engine.FailsCleanly compile := by
  have exhausted : engine.ctx.slots.capacity ≤ engine.ctx.slots.allocated ↔
      engine.ctx.slots.allocated = engine.ctx.slots.capacity :=
    ⟨fun full => Nat.le_antisymm sound.linking.allocated_le full, Nat.le_of_eq ∘ Eq.symm⟩
  have call_error : ∀ site ret fault, (engine.call site ret).value = .error fault ↔
      engine.callSites.find? site = none ∧
        engine.ctx.slots.allocated = engine.ctx.slots.capacity ∧
          fault = ⟨engine.ctx.slots.capacity⟩ := by
    intro site ret fault
    rw [Engine.call_error_iff, Context.prepare_error_iff, exhausted]
  have emitPush_error : ∀ (builder : Code.Builder) registry ret fault,
      (builder.emitPush engine.ctx registry ret).value = .error fault ↔
        engine.ctx.slots.allocated = engine.ctx.slots.capacity ∧
          fault = ⟨engine.ctx.slots.capacity⟩ := by
    intro builder registry ret fault
    rw [← exhausted, ← Context.prepare_error_iff engine.ctx registry ret]
    rfl
  refine ⟨call_error, ?_, emitPush_error, ?_, resolve_error_iff compile engine,
    fun _ _ failed => ⟨state_resolve_of_error failed, asked_resolve_of_error failed⟩,
    sound.ret_error_iff,
    fun _ _ failed => ⟨sound.state_ret_of_error failed, sound.asked_ret_of_error failed⟩, ?_,
    sound.jump_error_iff,
    fun _ _ failed => ⟨sound.state_jump_of_error failed, sound.asked_jump_of_error failed⟩⟩
  · intro site ret fault refused registry
    obtain ⟨new, full, rfl⟩ := (call_error site ret fault).1 refused
    have other : { engine with registry }.callSites.find? site = none := new
    exact call_of_full other (exhausted.2 full) ret
  · intro builder registry ret fault refused
    obtain ⟨full, rfl⟩ := (emitPush_error builder registry ret fault).1 refused
    exact builder.emitPush_of_full (exhausted.2 full) registry ret
  · intro actual fault failed matched
    have missed := ((ret_error_iff_resolve compile engine actual fault).1 failed).1
    rw [sound.state_ret_of_error failed]
    exact Context.exists_frames_eq_cons_of_ne_hit sound.shadow_wf missed matched

/-- Failed operations leave nothing half done: a refused call changes nothing and asks for no block,
and an operation without a block for its target leaves the registry, the call sites, the slots, the
waiting links and the cached jump targets as they were, and has asked the compiler once. -/
theorem run_failsCleanly {config : Config} {compiler : κ} {made : Outcome (Engine κ) Unit}
    (created : create config compiler = .ok made) (compile : Compile κ) (actions : List Action) :
    (run compile made.state actions).state.FailsCleanly compile :=
  ((sound_create created).run actions).failsCleanly compile

/-- A call site waits for its block, and a failed jump leaves an update pending. -/
def unfinished : List Action :=
  [.register ⟨⟨16⟩, ⟨10⟩⟩, .call ⟨1⟩ ⟨32⟩, .jump ⟨16⟩, .jump ⟨48⟩]

/-- The engine of the smallest caches after that, with a compiler that declines everything. -/
def afterUnfinished : Engine Unit := (run .declining smallest unfinished).state

/-- From there every operation that can fail does at some address, the return in both ways. -/
theorem run_failsCleanly_unfinished :
    create .smallest () = .ok ⟨(), smallest, [.contextCreated .smallest]⟩ ∧
      (∀ registry, { afterUnfinished with registry }.call ⟨2⟩ ⟨16⟩ =
        ⟨.error ⟨1⟩, { afterUnfinished with registry }, [.slotsExhausted 1]⟩) ∧
      (Code.Builder.empty.emitPush afterUnfinished.ctx afterUnfinished.registry ⟨16⟩).state =
        (afterUnfinished.ctx, .empty) ∧
      (ret .declining afterUnfinished ⟨32⟩).value = .error ⟨⟨32⟩⟩ ∧
      (ret .declining afterUnfinished ⟨32⟩).state.ctx.shadow.frames = [] ∧
      asked .declining afterUnfinished [.ret ⟨32⟩] = [⟨32⟩] ∧
      (ret .declining afterUnfinished ⟨64⟩).state.ctx.shadow = afterUnfinished.ctx.shadow ∧
      afterUnfinished.ctx.updatePending = true ∧
      (jump .declining afterUnfinished ⟨64⟩).state =
        (afterUnfinished.afterRequest .declining ⟨64⟩).withContext afterUnfinished.ctx.afterMiss ∧
      asked .declining afterUnfinished [.jump ⟨64⟩] = [⟨64⟩] ∧
      (resolve .declining afterUnfinished ⟨64⟩).state =
        afterUnfinished.afterRequest .declining ⟨64⟩ := by
  have clean : afterUnfinished.FailsCleanly .declining :=
    run_failsCleanly create_smallest .declining unfinished
  have returned := (clean.ret_error ⟨32⟩ ⟨⟨32⟩⟩).2 ⟨⟨rfl, rfl⟩, rfl⟩
  have mismatched := (clean.ret_error ⟨64⟩ ⟨⟨64⟩⟩).2 ⟨⟨rfl, rfl⟩, rfl⟩
  have jumped := (clean.jump_error ⟨64⟩ ⟨⟨64⟩⟩).2 ⟨⟨rfl, rfl⟩, rfl⟩
  have resolved := (clean.resolve_error ⟨64⟩ ⟨⟨64⟩⟩).2 ⟨⟨rfl, rfl⟩, rfl⟩
  have refused := (clean.call_error ⟨2⟩ ⟨16⟩ ⟨1⟩).2 ⟨rfl, rfl, rfl⟩
  have unemitted := (clean.emitPush_error .empty afterUnfinished.registry ⟨16⟩ ⟨1⟩).2 ⟨rfl, rfl⟩
  obtain ⟨popped, once⟩ := clean.ret_state _ _ returned
  obtain ⟨missed, onceMissed⟩ := clean.jump_state _ _ jumped
  refine ⟨create_smallest, clean.call_outcome _ _ _ refused, ?_, returned, ?_, once, ?_, rfl,
    missed, onceMissed, (clean.resolve_state _ _ resolved).1⟩
  · rw [clean.emitPush_outcome _ _ _ _ unemitted]
  · rw [popped]
    rfl
  · rw [(clean.ret_state _ _ mismatched).1]
    rfl

end Engine

end TransferCache
