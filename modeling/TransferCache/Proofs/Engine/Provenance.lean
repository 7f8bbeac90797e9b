import TransferCache.Proofs.Engine.History
import TransferCache.Proofs.Engine.Lookups

/-!
# Where a predicted target comes from

A predicted target is not made up. Each part of an engine that a prediction reads was brought about
by an operation of the run, and no flush came after it:

* the frame on top of the stack, by a call (`Sound.since_pushes`);
* the host code in its slot, by an operation that wrote it there (`Sound.since_fills`);
* a cached jump target, by a jump that the slow path resolved (`Sound.since_stores`);
* and the host code itself, by a registration for exactly the address (`mem_recentOf_iff`).

`run_provenance` puts them together for an engine just built. Addresses that share a bucket or an
index, and the address of the base frame, are addresses like any other.
-/

namespace TransferCache

/-- Empties the shadow stack. -/
def Action.EmptiesStack : Action → Prop
  | .flushCode | .flushStack => True
  | .register _ | .resolve _ | .call .. | .ret _ | .jump _ => False

namespace Engine

variable {κ : Type} {compile : Compile κ} {engine : Engine κ} {recent : List Block}
  {actions : List Action}

/-! ## Frames -/

/-- A call that is not refused, and that pushes this frame. -/
def Pushes (frame : Frame) (engine : Engine κ) (action : Action) : Prop :=
  ∃ site ret called, action = .call site ret ∧ (engine.call site ret).value = .ok called ∧
    called.frame = frame

/-- A pop brings in no frame. -/
theorem Sound.mem_frames_of_pop (sound : engine.Sound recent) {actual : GuestAddr} {frame : Frame}
    (live : frame ∈ (engine.ctx.pop actual).state.shadow.frames) :
    frame ∈ engine.ctx.shadow.frames := by
  obtain ⟨_, _, _, _, rfl | rfl, state⟩ := engine.ctx.state_pop actual
  · rw [state] at live
    exact live
  · rw [state] at live
    change frame ∈ engine.ctx.shadow.pop.frames at live
    rw [sound.shadow_wf.frames_pop] at live
    exact List.mem_of_mem_tail live

/-- A frame that is live after an operation was just pushed, or was live before and not flushed. -/
theorem Sound.pushes_of_mem_frames (sound : engine.Sound recent) (compile : Compile κ)
    (action : Action) {frame : Frame}
    (live : frame ∈ (Engine.step compile engine action).state.ctx.shadow.frames) :
    Pushes frame engine action ∨ ¬action.EmptiesStack ∧ frame ∈ engine.ctx.shadow.frames := by
  have kept : ¬action.EmptiesStack →
      (Engine.step compile engine action).state.ctx.shadow = engine.ctx.shadow →
      Pushes frame engine action ∨ ¬action.EmptiesStack ∧ frame ∈ engine.ctx.shadow.frames := by
    intro going same
    rw [same] at live
    exact Or.inr ⟨going, live⟩
  cases action with
  | register block => exact kept not_false rfl
  | resolve guest => exact kept not_false (shadow_resolve compile engine guest)
  | jump target => exact kept not_false (shadow_jump compile engine target)
  | call site ret =>
    rcases shadow_call engine site ret with ⟨_, -, same⟩ | ⟨called, value, pushed⟩
    · exact kept not_false same
    · change frame ∈ (engine.call site ret).state.ctx.shadow.frames at live
      rw [pushed, sound.shadow_wf.frames_push] at live
      rcases OverflowPolicy.mem_of_mem_pushed live with rfl | older
      · exact Or.inl ⟨site, ret, called, rfl, value, rfl⟩
      · exact Or.inr ⟨not_false, older⟩
  | ret actual =>
    change frame ∈ (Engine.ret compile engine actual).state.ctx.shadow.frames at live
    rw [shadow_ret] at live
    exact Or.inr ⟨not_false, sound.mem_frames_of_pop live⟩
  | flushCode =>
    change frame ∈ engine.ctx.shadow.flush.frames at live
    rw [ShadowStack.frames_flush] at live
    cases live
  | flushStack =>
    change frame ∈ engine.ctx.shadow.flush.frames at live
    rw [ShadowStack.frames_flush] at live
    cases live

/-- A live frame was pushed since the stack was last emptied. -/
theorem Sound.since_pushes (sound : engine.Sound recent) (fresh : engine.ctx.shadow.frames = [])
    {frame : Frame}
    (live : frame ∈ (Engine.run compile engine actions).state.ctx.shadow.frames) :
    Since compile engine (Pushes frame) Action.EmptiesStack actions := by
  refine sound.since_of_state (frame ∈ ·.ctx.shadow.frames) ?_ ?_ live
  · rw [fresh]
    exact List.not_mem_nil
  · intro engine recent sound action
    exact sound.pushes_of_mem_frames compile action

/-! ## Slots -/

/-- An operation that writes this host code to the slot. -/
def Fills (compile : Compile κ) (slot : SlotRef) (host : HostAddr) (engine : Engine κ)
    (action : Action) : Prop :=
  engine.ctx.slots.value slot ≠ host ∧
    (step compile engine action).state.ctx.slots.value slot = host

/-- What a slot holds was written since the code was last flushed. -/
theorem Sound.since_fills (sound : engine.Sound recent) {slot : SlotRef} {host : HostAddr}
    (fresh : engine.ctx.slots.value slot = .unresolved) (filled : host ≠ .unresolved)
    (now : (Engine.run compile engine actions).state.ctx.slots.value slot = host) :
    Since compile engine (Fills compile slot host) (· = .flushCode) actions := by
  refine sound.since_of_state (·.ctx.slots.value slot = host) ?_ ?_ now
  · intro holds
    exact filled (holds.symm.trans fresh)
  · intro engine _ _ action after
    by_cases before : engine.ctx.slots.value slot = host
    · refine Or.inr ⟨?_, before⟩
      rintro rfl
      change engine.ctx.slots.clear.value slot = host at after
      rw [SlotArray.value_clear] at after
      exact filled after.symm
    · exact Or.inl ⟨before, after⟩

/-! ## Jump targets -/

/-- A jump that the slow path resolves to this block, which is then stored. -/
def Stores (compile : Compile κ) (block : Block) (engine : Engine κ) (action : Action) : Prop :=
  action = .jump block.guest ∧
    (jump compile engine block.guest).value = .ok (.resolved block.host)

/-- After a block is stored, a cached target is that of the block or was cached before. -/
theorem Sound.lookup_of_update (sound : engine.Sound recent) {block : Block} {target : GuestAddr}
    {host : HostAddr} (cached : (engine.ctx.targets.update block).lookup target = some host) :
    block = ⟨target, host⟩ ∨ engine.ctx.targets.lookup target = some host := by
  rw [TargetCache.lookup_update sound.targets_sized] at cached
  split at cached
  · next here =>
    cases here
    cases cached
    exact Or.inl rfl
  · split at cached
    · cases cached
    · exact Or.inr cached

/-- A target that is cached after an operation was just stored, or was cached before and not
flushed. -/
theorem Sound.stores_of_lookup (sound : engine.Sound recent) (compile : Compile κ)
    (action : Action) {target : GuestAddr} {host : HostAddr}
    (cached : (Engine.step compile engine action).state.ctx.targets.lookup target = some host) :
    Stores compile ⟨target, host⟩ engine action ∨
      action ≠ .flushCode ∧ engine.ctx.targets.lookup target = some host := by
  have kept : (∀ other, action ≠ .jump other) → action ≠ .flushCode →
      action ≠ .flushCode ∧ engine.ctx.targets.lookup target = some host := by
    intro elsewhere going
    have same := congrArg Lookups.targets (lookups_step compile engine elsewhere going)
    change (Engine.step compile engine action).state.ctx.targets = engine.ctx.targets at same
    rw [same] at cached
    exact ⟨going, cached⟩
  cases action with
  | register | resolve | call | ret | flushStack => exact Or.inr (kept nofun nofun)
  | flushCode =>
    change engine.ctx.targets.clear.lookup target = some host at cached
    rw [TargetCache.lookup_clear] at cached
    cases cached
  | jump other =>
    change (Engine.jump compile engine other).state.ctx.lookups.targets.lookup target =
      some host at cached
    rcases sound.jump_outcomes compile other with
      ⟨_, -, -, -, state⟩ | ⟨_, block, -, -, registered, value, state⟩ | ⟨_, -, -, state⟩ |
        ⟨block, -, here, value, state⟩
    · rw [state] at cached
      exact Or.inr ⟨nofun, cached⟩
    · rw [state] at cached
      have here : block.guest = other := Registry.guest_of_lookup registered
      rcases sound.lookup_of_update cached with rfl | before
      · cases here
        exact Or.inl ⟨rfl, value⟩
      · exact Or.inr ⟨nofun, before⟩
    · rw [state] at cached
      exact Or.inr ⟨nofun, cached⟩
    · rw [state] at cached
      rcases sound.lookup_of_update cached with rfl | before
      · cases here
        exact Or.inl ⟨rfl, value⟩
      · exact Or.inr ⟨nofun, before⟩

/-- A cached jump target was stored since the code was last flushed. -/
theorem Sound.since_stores (sound : engine.Sound recent) {target : GuestAddr} {host : HostAddr}
    (fresh : engine.ctx.targets.lookup target = none)
    (cached : (Engine.run compile engine actions).state.ctx.targets.lookup target = some host) :
    Since compile engine (Stores compile ⟨target, host⟩) (· = .flushCode) actions := by
  refine sound.since_of_state (·.ctx.targets.lookup target = some host) ?_ ?_ cached
  · intro early
    cases fresh.symm.trans early
  · intro engine recent sound action
    exact sound.stores_of_lookup compile action

/-! ## Predictions -/

/-- A predicted return finds the frame of a compiled call site that returns to the actual address on
top of the stack, and host code in its slot. -/
theorem Sound.site_of_ret (sound : engine.Sound recent) {actual : GuestAddr} {host : HostAddr}
    (predicted : (Engine.ret compile engine actual).value = .ok (.predicted host)) :
    host ≠ .unresolved ∧ ∃ called ∈ engine.compiled, called.ret = actual ∧
      engine.ctx.shadow.frames.head? = some called.frame ∧
      engine.ctx.slots.value called.slot = host := by
  have hit := (ret_predicted_iff compile engine actual host).1 predicted
  obtain ⟨filled, frame, top, matched, held⟩ := (Context.pop_hit_iff sound.shadow_wf _ _).1 hit
  obtain ⟨called, compiled, rfl⟩ := sound.frames frame (List.mem_of_mem_head? top)
  exact ⟨filled, called, compiled, matched, top, held⟩

/-- However an engine is used after it was built, a target that a return or a jump is predicted to
have was registered for exactly the address since the code was last flushed. For a return it is not
the unresolved address, and it is what the slot of a compiled call site holds since then; that call
site was called since the stack was last emptied, and its frame is on top. For a jump it was stored
since the code was last flushed. -/
theorem run_provenance {config : Config} {compiler : κ} {made : Outcome (Engine κ) Unit}
    (created : create config compiler = .ok made) (compile : Compile κ) (actions : List Action)
    (guest : GuestAddr) (host : HostAddr) :
    let engine := (run compile made.state actions).state
    ((ret compile engine guest).value = .ok (.predicted host) →
      host ≠ .unresolved ∧
      Since compile made.state (Registers compile ⟨guest, host⟩) (· = .flushCode) actions ∧
      ∃ called ∈ engine.compiled, called.ret = guest ∧
        engine.ctx.shadow.frames.head? = some called.frame ∧
        engine.ctx.slots.value called.slot = host ∧
        Since compile made.state (Pushes called.frame) Action.EmptiesStack actions ∧
        Since compile made.state (Fills compile called.slot host) (· = .flushCode) actions) ∧
    ((jump compile engine guest).value = .ok (.predicted host) →
      Since compile made.state (Registers compile ⟨guest, host⟩) (· = .flushCode) actions ∧
      Since compile made.state (Stores compile ⟨guest, host⟩) (· = .flushCode) actions) := by
  intro engine
  have new := sound_create created
  have sound : engine.Sound (recentOf compile made.state [] actions) := new.run actions
  have start := (of_create created).1
  constructor
  · intro predicted
    obtain ⟨filled, called, compiled, returns, top, held⟩ := sound.site_of_ret predicted
    have unlinked : made.state.ctx.slots.value called.slot = .unresolved := by
      rw [start]
      exact SlotArray.value_ofCapacity _ _
    have empty : made.state.ctx.shadow.frames = [] := by
      rw [start]
      exact ShadowStack.frames_ofCapacity _ _
    have registered := mem_recentOf_iff.1 (sound.recent_of_ret predicted).1
    have pushed := new.since_pushes empty (List.mem_of_mem_head? top)
    have written := new.since_fills unlinked filled held
    exact ⟨filled, registered, called, compiled, returns, top, held, pushed, written⟩
  · intro predicted
    have uncached : made.state.ctx.targets.lookup guest = none := by
      rw [start]
      exact TargetCache.lookup_ofBits _ _
    have registered := mem_recentOf_iff.1 (sound.recent_of_jump predicted)
    exact ⟨registered, new.since_stores uncached (lookup_of_jump predicted)⟩

/-- A block is called from and jumped to, the code is flushed, and the same is done with a block of
other host code. -/
def reusing : List Action :=
  [.register ⟨⟨16⟩, ⟨10⟩⟩, .call ⟨1⟩ ⟨16⟩, .jump ⟨16⟩, .flushCode, .register ⟨⟨16⟩, ⟨11⟩⟩,
    .call ⟨1⟩ ⟨16⟩, .jump ⟨16⟩]

/-- The slot and the cached target are those of the second block. -/
theorem run_provenance_reusing :
    create .smallest () = .ok ⟨(), smallest, [.contextCreated .smallest]⟩ ∧
      (ret .identical (run .identical smallest reusing).state ⟨16⟩).value =
        .ok (.predicted ⟨11⟩) ∧
      (jump .identical (run .identical smallest reusing).state ⟨16⟩).value =
        .ok (.predicted ⟨11⟩) ∧
      Since .identical smallest (Registers .identical ⟨⟨16⟩, ⟨11⟩⟩) (· = .flushCode) reusing ∧
      Since .identical smallest (Fills .identical ⟨0⟩ ⟨11⟩) (· = .flushCode) reusing ∧
      Since .identical smallest (Stores .identical ⟨⟨16⟩, ⟨11⟩⟩) (· = .flushCode) reusing := by
  obtain ⟨returned, jumped⟩ := run_provenance create_smallest .identical reusing ⟨16⟩ ⟨11⟩
  obtain ⟨-, registered, called, compiled, -, -, -, -, written⟩ := returned rfl
  have first : called.slot = ⟨0⟩ := by
    rw [show (run .identical smallest reusing).state.compiled = [⟨⟨16⟩, ⟨0⟩, true⟩] from rfl]
      at compiled
    rw [List.mem_singleton.1 compiled]
  rw [first] at written
  exact ⟨create_smallest, rfl, rfl, registered, written, (jumped rfl).2⟩

end Engine

end TransferCache
