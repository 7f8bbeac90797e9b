import TransferCache.Proofs.Engine.Steps

/-!
# What every engine keeps

`recent` lists the blocks registered since the code was last flushed: those named by a registration
and those compiled on the slow path. `Engine.Sound` says that nothing an engine has cached comes
from anywhere else. Every live frame is the frame of a compiled call site, every slot of a linked
call site holds a recent host for its return address, and every cached jump target is recent.

* `sound_create`: an engine just built is sound.
* `Sound.step`: every operation keeps an engine sound.
* `Sound.run`: so does every run.
* `Sound.recent_of_ret`, `Sound.recent_of_jump`: a predicted target is recent.
-/

namespace TransferCache

namespace Registry

/-- The block that a registry has for an address and an earlier one had not. -/
def newlyFound (before after : Registry) (guest : GuestAddr) : List Block :=
  match before.lookup guest with
  | some _ => []
  | none => (after.lookup guest).toList

@[simp] theorem newlyFound_self (registry : Registry) (guest : GuestAddr) :
    newlyFound registry registry guest = [] := by
  unfold newlyFound
  cases registry.lookup guest <;> rfl

theorem newlyFound_insert {registry : Registry} {block : Block}
    (new : registry.lookup block.guest = none) :
    newlyFound registry (registry.insert block) block.guest = [block] := by
  unfold newlyFound
  rw [new, lookup_insert_self]
  rfl

end Registry

/-! ## Fixed parts for closed instances -/

/-- An engine of the smallest configuration, just built, with a compiler without state. -/
def Engine.smallest : Engine Unit := ⟨.empty, Context.ofConfig .smallest, .empty, ()⟩

theorem Engine.create_smallest :
    Engine.create .smallest () =
      .ok ⟨(), Engine.smallest, [.contextCreated .smallest]⟩ := rfl

/-- Compiles every address to host code at the same number. -/
def Compile.identical : Compile Unit := fun _ guest => (some ⟨guest.word⟩, ())

namespace Engine

variable {κ : Type} {compile : Compile κ} {engine : Engine κ} {recent : List Block}

/-! ## Recent blocks -/

/-- The recent blocks after one more operation. The slow path compiles a block exactly when there
was none for its address and there is one afterwards. -/
def recentAfter (compile : Compile κ) (engine : Engine κ) (recent : List Block)
    (action : Action) : List Block :=
  match action with
  | .register block => block :: recent
  | .resolve guest | .ret guest | .jump guest =>
    engine.registry.newlyFound (step compile engine action).state.registry guest ++ recent
  | .flushCode => []
  | .call .. | .flushStack => recent

/-- The recent blocks after a run. -/
def recentOf (compile : Compile κ) : Engine κ → List Block → List Action → List Block
  | _, recent, [] => recent
  | engine, recent, action :: actions =>
    recentOf compile (step compile engine action).state
      (recentAfter compile engine recent action) actions

/-! ## Soundness -/

/-- Whatever an engine has cached comes from its compiled call sites and from recent blocks. -/
structure Sound (engine : Engine κ) (recent : List Block) : Prop where
  keyed : engine.callSites.Keyed
  linking : Linking engine.registry engine.compiled engine.ctx.slots engine.ctx.links recent
  shadow_wf : engine.ctx.shadow.WellFormed
  frames : ∀ frame ∈ engine.ctx.shadow.frames, ∃ site ∈ engine.compiled, frame = site.frame
  targets_sized : engine.ctx.targets.Sized
  targets : ∀ target host, engine.ctx.targets.lookup target = some host →
    (⟨target, host⟩ : Block) ∈ recent
  registered : ∀ guest block, engine.registry.lookup guest = some block → block ∈ recent
  recent_registered : ∀ block ∈ recent, engine.registry.lookup block.guest ≠ none

/-- Soundness looks at a context only through its stack, slots, waiters and jump targets. -/
theorem Sound.withContext (sound : engine.Sound recent) {ctx : Context}
    (slots : ctx.slots = engine.ctx.slots) (links : ctx.links = engine.ctx.links)
    (shadow_wf : ctx.shadow.WellFormed)
    (frames : ∀ frame ∈ ctx.shadow.frames, ∃ site ∈ engine.compiled, frame = site.frame)
    (targets_sized : ctx.targets.Sized)
    (targets : ∀ target host, ctx.targets.lookup target = some host →
      (⟨target, host⟩ : Block) ∈ recent) :
    (engine.withContext ctx).Sound recent where
  keyed := sound.keyed
  linking := by
    have linking := sound.linking
    rw [← slots, ← links] at linking
    exact linking
  shadow_wf := shadow_wf
  frames := frames
  targets_sized := targets_sized
  targets := targets
  registered := sound.registered
  recent_registered := sound.recent_registered

theorem Sound.withCompiler (sound : engine.Sound recent) (compiler : κ) :
    { engine with compiler }.Sound recent :=
  ⟨sound.keyed, sound.linking, sound.shadow_wf, sound.frames, sound.targets_sized, sound.targets,
    sound.registered, sound.recent_registered⟩

/-! ## Creation -/

theorem create_eq_ok_iff {config : Config} {compiler : κ} {made : Outcome (Engine κ) Unit} :
    create config compiler = .ok made ↔
      config.validate = .ok () ∧ config.stackSize.toNat + 1 < UInt64.size ∧
        ⟨(), ⟨.empty, .ofConfig config, .empty, compiler⟩, [.contextCreated config]⟩ = made := by
  unfold create
  cases built : Context.create config with
  | error fault =>
    refine iff_of_false nofun fun ⟨accepted, stored, _⟩ => ?_
    cases built.symm.trans (Context.create_eq_ok_iff.2 ⟨accepted, stored, rfl⟩)
  | ok ctx =>
    obtain ⟨accepted, stored, rfl⟩ := Context.create_eq_ok_iff.1 built
    rw [and_iff_right accepted, and_iff_right stored]
    exact ⟨Except.ok.inj, congrArg Except.ok⟩

theorem of_create {config : Config} {compiler : κ} {made : Outcome (Engine κ) Unit}
    (created : create config compiler = .ok made) :
    made.state = ⟨.empty, Context.ofConfig config, .empty, compiler⟩ ∧
      (Context.ofConfig config).shadow.WellFormed := by
  obtain ⟨accepted, stored, rfl⟩ := create_eq_ok_iff.1 created
  exact ⟨rfl, (Context.of_create (Context.create_eq_ok_iff.2 ⟨accepted, stored, rfl⟩)).2⟩

theorem sound_create {config : Config} {compiler : κ} {made : Outcome (Engine κ) Unit}
    (created : create config compiler = .ok made) : made.state.Sound [] := by
  obtain ⟨state, wf⟩ := of_create created
  rw [state]
  refine ⟨AddressMap.keyed_empty, Linking.ofCapacity (UInt64.toNat_lt _) _, wf, ?_,
    TargetCache.sized_ofBits _, ?_, ?_, ?_⟩
  · intro frame live
    rw [show (Context.ofConfig config).shadow.frames = [] from
      ShadowStack.frames_ofCapacity _ _] at live
    cases live
  · intro target host found
    rw [show (Context.ofConfig config).targets.lookup target = none from
      TargetCache.lookup_ofBits _ _] at found
    cases found
  · intro guest block found
    cases found
  · intro block member
    cases member

/-! ## Blocks -/

/-- A registered block is written to every slot that waits for it. -/
theorem Sound.slots_register (sound : engine.Sound recent) (block : Block) :
    (engine.register block).state.ctx.slots =
      engine.ctx.slots.resolveAll (engine.ctx.links.waiters block.guest) block.host := by
  have completed := (engine.ctx.completeLinks_eq block).2
  rw [sound.linking.filter_waiters] at completed
  exact congrArg Context.slots completed

theorem Sound.register (sound : engine.Sound recent) (block : Block) :
    (engine.register block).state.Sound (block :: recent) := by
  have completed := (engine.ctx.completeLinks_eq block).2
  rw [sound.linking.filter_waiters] at completed
  have state : (engine.register block).state =
      { engine with
        registry := engine.registry.insert block
        ctx := (engine.ctx.completeLinks block).state } := rfl
  rw [state, completed]
  refine ⟨sound.keyed, sound.linking.register block, sound.shadow_wf, sound.frames,
    sound.targets_sized, ?_, ?_, ?_⟩
  · exact fun target host found => List.mem_cons_of_mem _ (sound.targets target host found)
  · intro guest found registered
    rw [Registry.lookup_insert] at registered
    split at registered
    · cases registered
      exact List.mem_cons_self
    · exact List.mem_cons_of_mem _ (sound.registered guest found registered)
  · intro other member
    rw [Registry.lookup_insert]
    split
    · exact Option.some_ne_none _
    · next elsewhere =>
      rcases List.mem_cons.1 member with rfl | older
      · exact absurd rfl elsewhere
      · exact sound.recent_registered other older

theorem Sound.resolve (sound : engine.Sound recent) (compile : Compile κ) (guest : GuestAddr) :
    (resolve compile engine guest).state.Sound
      (engine.registry.newlyFound (resolve compile engine guest).state.registry guest ++
        recent) := by
  rcases resolve_cases compile engine guest with
    ⟨block, -, -, state⟩ | ⟨-, -, -, state⟩ | ⟨host, unregistered, -, -, state⟩
  · rw [state, Registry.newlyFound_self]
    exact sound
  · rw [state, Registry.newlyFound_self]
    exact sound.withCompiler _
  · rw [state]
    have found : engine.registry.newlyFound (engine.registry.insert ⟨guest, host⟩) guest =
        [⟨guest, host⟩] := Registry.newlyFound_insert unregistered
    change Sound _ (engine.registry.newlyFound (engine.registry.insert ⟨guest, host⟩) guest ++ _)
    rw [found]
    exact (sound.withCompiler _).register ⟨guest, host⟩

/-! ## Calls -/

theorem Sound.runCall (sound : engine.Sound recent) {site : CallSite}
    (compiled : site ∈ engine.compiled) : (engine.runCall site).state.Sound recent := by
  rw [(runCall_eq engine site).2, Context.state_push]
  refine sound.withContext rfl rfl (sound.shadow_wf.push site.frame) ?_ sound.targets_sized
    sound.targets
  intro frame live
  rw [sound.shadow_wf.frames_push] at live
  rcases OverflowPolicy.mem_of_mem_pushed live with rfl | older
  · exact ⟨site, compiled, rfl⟩
  · exact sound.frames frame older

/-- An engine is sound with a new call site once its slot is linked, now or later. -/
theorem Sound.prepare (sound : engine.Sound recent) {site : GuestAddr}
    (new : engine.callSites.find? site = none) {ret : GuestAddr} {fresh : CallSite}
    (prepared : (engine.ctx.prepare engine.registry ret).value = .ok fresh) :
    { engine.withContext (engine.ctx.prepare engine.registry ret).state with
      callSites := engine.callSites.insert site fresh }.Sound recent := by
  have grown : { engine.withContext (engine.ctx.prepare engine.registry ret).state with
      callSites := engine.callSites.insert site fresh }.compiled = engine.compiled ++ [fresh] :=
    compiled_insert new fresh
  have keyed := sound.keyed.insert new fresh
  have older : ∀ frame ∈ engine.ctx.shadow.frames,
      ∃ known ∈ engine.compiled ++ [fresh], frame = known.frame := by
    intro frame live
    obtain ⟨known, compiled, rfl⟩ := sound.frames frame live
    exact ⟨known, List.mem_append_left _ compiled, rfl⟩
  rcases engine.ctx.prepare_cases engine.registry ret with
    ⟨-, refused, -⟩ | ⟨room, linked, block, registered, value, state⟩ |
      ⟨room, unregistered, value, state⟩
  · cases refused.symm.trans prepared
  · cases value.symm.trans prepared
    have linking := sound.linking.linkNow room registered (sound.registered ret block registered)
      linked
    refine ⟨keyed, ?_, ?_, ?_, ?_, ?_, sound.registered, sound.recent_registered⟩
    · rw [grown, state]
      exact linking
    · rw [state]
      exact sound.shadow_wf
    · rw [grown, state]
      exact older
    · rw [state]
      exact sound.targets_sized
    · rw [state]
      exact sound.targets
  · cases value.symm.trans prepared
    have linking := sound.linking.linkLater room unregistered false
    refine ⟨keyed, ?_, ?_, ?_, ?_, ?_, sound.registered, sound.recent_registered⟩
    · rw [grown, state]
      exact linking
    · rw [state]
      exact sound.shadow_wf
    · rw [grown, state]
      exact older
    · rw [state]
      exact sound.targets_sized
    · rw [state]
      exact sound.targets

theorem Sound.call (sound : engine.Sound recent) (site ret : GuestAddr) :
    (engine.call site ret).state.Sound recent := by
  rcases engine.call_cases site ret with
    ⟨known, found, called⟩ | ⟨fault, new, refused, -, state⟩ | ⟨fresh, new, prepared, -, state⟩
  · rw [called]
    exact sound.runCall (mem_compiled_of_find? found)
  · rw [state]
    rcases engine.ctx.prepare_cases engine.registry ret with
      ⟨-, -, unchanged⟩ | ⟨-, _, _, -, value, -⟩ | ⟨-, -, value, -⟩
    · rw [unchanged]
      exact sound
    · cases value.symm.trans refused
    · cases value.symm.trans refused
  · rw [state]
    have last : fresh ∈ engine.compiled ++ [fresh] :=
      List.mem_append_right _ List.mem_cons_self
    rw [← compiled_insert new fresh] at last
    exact (sound.prepare new prepared).runCall last

/-! ## Returns and jumps -/

theorem Sound.pop (sound : engine.Sound recent) (actual : GuestAddr) :
    (engine.withContext (engine.ctx.pop actual).state).Sound recent := by
  have popped : ∀ frame ∈ engine.ctx.shadow.pop.frames,
      ∃ site ∈ engine.compiled, frame = site.frame := by
    intro frame live
    rw [sound.shadow_wf.frames_pop] at live
    exact sound.frames frame (List.mem_of_mem_tail live)
  rcases Context.pop_cases sound.shadow_wf actual with
    ⟨-, -, state⟩ | ⟨_, -, -, -, -, -, state⟩ | ⟨_, -, -, -, -, -, state⟩
  · rw [state]
    exact sound.withContext rfl rfl sound.shadow_wf sound.frames sound.targets_sized sound.targets
  · rw [state]
    exact sound.withContext rfl rfl sound.shadow_wf.pop popped sound.targets_sized sound.targets
  · rw [state]
    exact sound.withContext rfl rfl sound.shadow_wf.pop popped sound.targets_sized sound.targets

/-- Host code that a pop finds was registered recently for the actual address, which still has a
block. -/
theorem Sound.recent_of_hit (sound : engine.Sound recent) {actual : GuestAddr} {host : HostAddr}
    (hit : (engine.ctx.pop actual).value = .hit host) :
    (⟨actual, host⟩ : Block) ∈ recent ∧ host ≠ .unresolved := by
  rcases Context.pop_cases sound.shadow_wf actual with
    ⟨-, value, -⟩ | ⟨_, -, -, -, -, value, -⟩ | ⟨frame, live, -, matched, filled, value, -⟩
  · cases value.symm.trans hit
  · cases value.symm.trans hit
  · cases value.symm.trans hit
    obtain ⟨site, compiled, rfl⟩ := sound.frames frame live
    obtain rfl : site.ret = actual := matched
    have registered : engine.registry.lookup site.ret ≠ none := fun unregistered =>
      filled (sound.linking.unresolved site compiled unregistered)
    obtain ⟨block, found⟩ := Option.ne_none_iff_exists'.1 registered
    exact ⟨sound.linking.resolved site compiled block found, filled⟩

theorem Sound.ret (sound : engine.Sound recent) (actual : GuestAddr) :
    (ret compile engine actual).state.Sound
      (engine.registry.newlyFound (ret compile engine actual).state.registry actual ++
        recent) := by
  rcases ret_cases compile engine actual with ⟨host, -, -, state⟩ | ⟨-, -, state⟩
  · rw [state]
    change Sound _ (engine.registry.newlyFound engine.registry actual ++ _)
    rw [Registry.newlyFound_self]
    exact sound.pop actual
  · rw [state]
    exact (sound.pop actual).resolve compile actual

theorem Sound.lookup (sound : engine.Sound recent) (target : GuestAddr) :
    (engine.withContext (engine.ctx.lookupTarget target).state).Sound recent := by
  rcases engine.ctx.lookupTarget_cases target with ⟨_, -, -, state⟩ | ⟨-, -, state⟩
  · rw [state]
    exact sound.withContext rfl rfl sound.shadow_wf sound.frames sound.targets_sized sound.targets
  · rw [state]
    exact sound.withContext rfl rfl sound.shadow_wf sound.frames sound.targets_sized sound.targets

theorem Sound.updateTarget (sound : engine.Sound recent) {block : Block} (known : block ∈ recent) :
    (engine.withContext (engine.ctx.updateTarget block).state).Sound recent := by
  refine sound.withContext rfl rfl sound.shadow_wf sound.frames
    (sound.targets_sized.update block) ?_
  intro target host found
  rw [show (engine.ctx.updateTarget block).state.targets = engine.ctx.targets.update block from rfl,
    TargetCache.lookup_update sound.targets_sized] at found
  split at found
  · next here =>
    cases found
    subst here
    exact known
  · split at found
    · cases found
    · exact sound.targets target host found

theorem Sound.jump (sound : engine.Sound recent) (target : GuestAddr) :
    (jump compile engine target).state.Sound
      (engine.registry.newlyFound (jump compile engine target).state.registry target ++
        recent) := by
  have looked := sound.lookup target
  rcases jump_cases compile engine target with
    ⟨-, -, state⟩ | ⟨-, slow, rfl, ⟨fault, -, -, state⟩ | ⟨block, resolved, -, state⟩⟩
  · rw [state]
    change Sound _ (engine.registry.newlyFound engine.registry target ++ _)
    rw [Registry.newlyFound_self]
    exact looked
  · rw [state]
    exact looked.resolve compile target
  · rw [state]
    have after := looked.resolve compile target
    exact after.updateTarget (after.registered target block (lookup_of_resolve resolved))

/-! ## Flushes -/

theorem Sound.flushStack (sound : engine.Sound recent) : engine.flushStack.state.Sound recent := by
  refine sound.withContext rfl rfl sound.shadow_wf.flush ?_ sound.targets_sized sound.targets
  intro frame live
  rw [show engine.ctx.flushStack.state.shadow.frames = [] from
    ShadowStack.frames_flush engine.ctx.shadow] at live
  cases live

theorem Sound.flushCode (sound : engine.Sound recent) : engine.flushCode.state.Sound [] := by
  refine ⟨AddressMap.keyed_empty, sound.linking.clear, sound.shadow_wf.flush, ?_,
    sound.targets_sized.clear, ?_, ?_, ?_⟩
  · intro frame live
    rw [show engine.flushCode.state.ctx.shadow.frames = [] from
      ShadowStack.frames_flush engine.ctx.shadow] at live
    cases live
  · intro target host found
    rw [show engine.flushCode.state.ctx.targets.lookup target = none from
      TargetCache.lookup_clear engine.ctx.targets target] at found
    cases found
  · intro guest block found
    cases found
  · intro block member
    cases member

/-! ## Steps and runs -/

theorem Sound.step (sound : engine.Sound recent) (action : Action) :
    (step compile engine action).state.Sound (recentAfter compile engine recent action) := by
  cases action with
  | register block => exact sound.register block
  | resolve guest => exact sound.resolve compile guest
  | call site ret => exact sound.call site ret
  | ret actual => exact sound.ret actual
  | jump target => exact sound.jump target
  | flushCode => exact sound.flushCode
  | flushStack => exact sound.flushStack

theorem Sound.run (sound : engine.Sound recent) (actions : List Action) :
    (run compile engine actions).state.Sound (recentOf compile engine recent actions) := by
  induction actions generalizing engine recent with
  | nil => exact sound
  | cons action actions ih => exact ih (sound.step action)

/-! ## Predicted targets -/

theorem Sound.recent_of_ret (sound : engine.Sound recent) {actual : GuestAddr} {host : HostAddr}
    (predicted : (Engine.ret compile engine actual).value = .ok (.predicted host)) :
    (⟨actual, host⟩ : Block) ∈ recent ∧ host ≠ .unresolved :=
  sound.recent_of_hit ((ret_predicted_iff compile engine actual host).1 predicted)

/-- A predicted jump found its target in the cache. -/
theorem lookup_of_jump {target : GuestAddr} {host : HostAddr}
    (predicted : (Engine.jump compile engine target).value = .ok (.predicted host)) :
    engine.ctx.targets.lookup target = some host := by
  rcases jump_cases compile engine target with
    ⟨settled, value, -⟩ | ⟨-, _, -, ⟨_, -, value, -⟩ | ⟨_, -, value, -⟩⟩
  · cases value.symm.trans predicted
    rcases engine.ctx.lookupTarget_cases target with ⟨host, found, value, -⟩ | ⟨-, -, state⟩
    · rw [value]
      exact found
    · rw [state] at settled
      cases settled
  · cases value.symm.trans predicted
  · cases value.symm.trans predicted

theorem Sound.recent_of_jump (sound : engine.Sound recent) {target : GuestAddr} {host : HostAddr}
    (predicted : (Engine.jump compile engine target).value = .ok (.predicted host)) :
    (⟨target, host⟩ : Block) ∈ recent :=
  sound.targets target host (lookup_of_jump predicted)

end Engine

end TransferCache
