import Mathlib.Data.List.Forall2
import TransferCache.Proofs.Context.Unstacked
import TransferCache.Proofs.Engine.Protocols
import TransferCache.Proofs.Engine.Sound

/-!
# A larger ring predicts more

Two engines that differ only in their stacks are put through the same operations. If the stack of
one is a ring with at least the room of the other's, then the frames of the smaller stack are always
the newest frames of the ring (`ShadowStack.Covers`), whatever either has forgotten in between, and
the engines agree on everything else (`Engine.unstacked`). So the engine with the ring answers as
the other does, except that it may predict a return that the other resolves. Such a return finds its
block registered, which is why the slow path of the other engine changes nothing.

* `Dominates.step`: one operation.
* `Dominates.run`: any number of them.
* `run_dominates`: the same for two engines just built.
-/

namespace TransferCache

/-- The second answer is the first one, or predicts a transfer that the first resolves. -/
inductive Answer.AtLeast : Answer → Answer → Prop
  | same (answer : Answer) : AtLeast answer answer
  | predicted (slow fast : HostAddr) :
    AtLeast (.transferred (.ok (.resolved slow))) (.transferred (.ok (.predicted fast)))

theorem Answer.AtLeast.of_eq {first second : Answer} (equal : second = first) :
    AtLeast first second := by
  rw [equal]
  exact .same first

namespace Engine

variable {κ : Type} {compile : Compile κ} {engine narrow wide : Engine κ} {recent : List Block}

/-! ## Engines without their stacks -/

/-- The engine with a stack that has no room, and without the counts of pushes and pops. -/
def unstacked (engine : Engine κ) : Engine κ := engine.withContext engine.ctx.unstacked

@[simp] theorem registry_unstacked (engine : Engine κ) :
    engine.unstacked.registry = engine.registry := rfl

@[simp] theorem callSites_unstacked (engine : Engine κ) :
    engine.unstacked.callSites = engine.callSites := rfl

@[simp] theorem compiler_unstacked (engine : Engine κ) :
    engine.unstacked.compiler = engine.compiler := rfl

@[simp] theorem unstacked_runCall (engine : Engine κ) (site : CallSite) :
    (engine.runCall site).state.unstacked = engine.unstacked := by
  rw [(runCall_eq engine site).2]
  exact congrArg engine.withContext (engine.ctx.unstacked_push site)

theorem register_unstacked (engine : Engine κ) (block : Block) :
    engine.unstacked.register block = (engine.register block).within unstacked := rfl

theorem resolve_unstacked (compile : Compile κ) (engine : Engine κ) (guest : GuestAddr) :
    resolve compile engine.unstacked guest = (resolve compile engine guest).within unstacked :=
  resolve_viewed Context.completeLinks_unstacked compile engine guest

/-- A call answers alike whatever the stack is, and leaves all but the stack alike. -/
theorem call_unstacked (engine : Engine κ) (site ret : GuestAddr) :
    (engine.unstacked.call site ret).value = (engine.call site ret).value ∧
      (engine.unstacked.call site ret).state.unstacked =
        (engine.call site ret).state.unstacked := by
  unfold call
  rw [callSites_unstacked]
  cases engine.callSites.find? site with
  | some known =>
    -- The two pushes meet different stacks, and nothing else is left of either.
    refine ⟨rfl, ?_⟩
    simp only [unstacked_runCall]
    rfl
  | none =>
    have prepared : engine.unstacked.ctx.prepare engine.unstacked.registry ret =
        (engine.ctx.prepare engine.registry ret).within Context.unstacked :=
      engine.ctx.prepare_unstacked engine.registry ret
    simp only [prepared, Outcome.value_andThen, Outcome.state_andThen, Outcome.value_within,
      Outcome.state_within]
    cases (engine.ctx.prepare engine.registry ret).value with
    | error fault => exact ⟨rfl, rfl⟩
    | ok fresh =>
      refine ⟨rfl, ?_⟩
      simp only [unstacked_runCall]
      rfl

theorem jump_unstacked (compile : Compile κ) (engine : Engine κ) (target : GuestAddr) :
    jump compile engine.unstacked target = (jump compile engine target).within unstacked :=
  jump_viewed Context.lookupTarget_unstacked Context.completeLinks_unstacked
    Context.updateTarget_unstacked (fun _ => rfl) compile engine target

/-- A return is predicted by its pop, or goes the same slow way whatever the stack is. -/
theorem ret_unstacked (compile : Compile κ) (engine : Engine κ) (actual : GuestAddr) :
    (∃ host, (engine.ctx.pop actual).value = .hit host ∧
      (ret compile engine actual).value = .ok (.predicted host) ∧
      (ret compile engine actual).state.unstacked = engine.unstacked) ∨
    ((∀ host, (engine.ctx.pop actual).value ≠ .hit host) ∧
      (ret compile engine actual).value =
        (resolve compile engine.unstacked actual).value.map (fun block => .resolved block.host) ∧
      (ret compile engine actual).state.unstacked =
        (resolve compile engine.unstacked actual).state) := by
  have popped : (engine.withContext (engine.ctx.pop actual).state).unstacked = engine.unstacked :=
    congrArg engine.withContext (engine.ctx.unstacked_pop actual)
  have slow := resolve_unstacked compile
    (engine.withContext (engine.ctx.pop actual).state) actual
  rw [popped] at slow
  rcases ret_cases compile engine actual with ⟨host, hit, value, state⟩ | ⟨missed, value, state⟩
  · refine Or.inl ⟨host, hit, value, ?_⟩
    rw [state]
    exact popped
  · refine Or.inr ⟨missed, ?_, ?_⟩
    · rw [value, slow]
      rfl
    · rw [state, slow]
      rfl

/-! ## One operation -/

/-- Engines that agree on everything but their stacks, and the wide stack is a ring that covers the
narrow one. -/
structure Dominates (wide narrow : Engine κ) : Prop where
  alike : wide.unstacked = narrow.unstacked
  covers : wide.ctx.shadow.Covers narrow.ctx.shadow

theorem Dominates.registry_eq (dominates : wide.Dominates narrow) :
    wide.registry = narrow.registry := by
  rw [← registry_unstacked wide, dominates.alike, registry_unstacked]

theorem Dominates.slots_eq (dominates : wide.Dominates narrow) :
    wide.ctx.slots = narrow.ctx.slots :=
  congrArg (·.ctx.slots) dominates.alike

theorem Dominates.links_eq (dominates : wide.Dominates narrow) :
    wide.ctx.links = narrow.ctx.links :=
  congrArg (·.ctx.links) dominates.alike

/-- What an operation does to the rest of an engine says whether domination is kept. -/
theorem Dominates.of_within {α : Type} {few many : Outcome (Engine κ) α}
    (alike : many.within unstacked = few.within unstacked)
    (covers : many.state.ctx.shadow.Covers few.state.ctx.shadow) :
    many.value = few.value ∧ many.state.Dominates few.state := by
  have value : (many.within unstacked).value = (few.within unstacked).value :=
    congrArg Outcome.value alike
  exact ⟨value, congrArg Outcome.state alike, covers⟩

theorem Dominates.register (dominates : wide.Dominates narrow) (block : Block) :
    (wide.register block).value = (narrow.register block).value ∧
      (wide.register block).state.Dominates (narrow.register block).state := by
  refine of_within ?_ dominates.covers
  rw [← register_unstacked, ← register_unstacked, dominates.alike]

theorem Dominates.resolve (dominates : wide.Dominates narrow) (compile : Compile κ)
    (guest : GuestAddr) :
    (resolve compile wide guest).value = (resolve compile narrow guest).value ∧
      (resolve compile wide guest).state.Dominates (resolve compile narrow guest).state := by
  refine of_within ?_ ?_
  · rw [← resolve_unstacked, ← resolve_unstacked, dominates.alike]
  · rw [shadow_resolve, shadow_resolve]
    exact dominates.covers

theorem Dominates.jump (dominates : wide.Dominates narrow) (compile : Compile κ)
    (target : GuestAddr) :
    (jump compile wide target).value = (jump compile narrow target).value ∧
      (jump compile wide target).state.Dominates (jump compile narrow target).state := by
  refine of_within ?_ ?_
  · rw [← jump_unstacked, ← jump_unstacked, dominates.alike]
  · rw [shadow_jump, shadow_jump]
    exact dominates.covers

theorem Dominates.call (dominates : wide.Dominates narrow) (site ret : GuestAddr) :
    (wide.call site ret).value = (narrow.call site ret).value ∧
      (wide.call site ret).state.Dominates (narrow.call site ret).state := by
  obtain ⟨many, wider⟩ := call_unstacked wide site ret
  obtain ⟨few, narrower⟩ := call_unstacked narrow site ret
  rw [dominates.alike] at many wider
  have value : (wide.call site ret).value = (narrow.call site ret).value := many.symm.trans few
  refine ⟨value, wider.symm.trans narrower, ?_⟩
  rcases shadow_call wide site ret with ⟨_, refused, same⟩ | ⟨called, ran, pushed⟩
  · rcases shadow_call narrow site ret with ⟨_, -, unchanged⟩ | ⟨_, went, -⟩
    · rw [same, unchanged]
      exact dominates.covers
    · cases refused.symm.trans (value.trans went)
  · rcases shadow_call narrow site ret with ⟨_, failed, -⟩ | ⟨_, went, entered⟩
    · cases ran.symm.trans (value.trans failed)
    · cases ran.symm.trans (value.trans went)
      rw [pushed, entered]
      exact dominates.covers.push called.frame

theorem Dominates.flushStack (dominates : wide.Dominates narrow) :
    wide.flushStack.state.Dominates narrow.flushStack.state :=
  ⟨congrArg (·.flushStack.state) dominates.alike, dominates.covers.flush⟩

theorem Dominates.flushCode (dominates : wide.Dominates narrow) :
    wide.flushCode.state.Dominates narrow.flushCode.state :=
  ⟨congrArg (·.flushCode.state) dominates.alike, dominates.covers.flush⟩

/-- What a return is predicted to reach with the smaller stack it is predicted to reach with the
ring. -/
theorem Dominates.predicted (dominates : wide.Dominates narrow) {actual : GuestAddr}
    {host : HostAddr}
    (predicted : (Engine.ret compile narrow actual).value = .ok (.predicted host)) :
    (Engine.ret compile wide actual).value = .ok (.predicted host) := by
  have hit := (ret_predicted_iff compile narrow actual host).1 predicted
  exact (ret_predicted_iff compile wide actual host).2
    (Context.hit_of_covers dominates.slots_eq.symm dominates.covers hit)

theorem Dominates.ret (dominates : wide.Dominates narrow) (sound : wide.Sound recent)
    (compile : Compile κ) (actual : GuestAddr) :
    Answer.AtLeast (.transferred (Engine.ret compile narrow actual).value)
        (.transferred (Engine.ret compile wide actual).value) ∧
      (Engine.ret compile wide actual).state.Dominates
        (Engine.ret compile narrow actual).state := by
  have covers := Context.covers_pop dominates.covers actual
  rw [← shadow_ret compile, ← shadow_ret compile] at covers
  rcases ret_unstacked compile narrow actual with
    ⟨host, hit, few, narrower⟩ | ⟨missed, few, narrower⟩
  · have kept := Context.hit_of_covers dominates.slots_eq.symm dominates.covers hit
    rcases ret_unstacked compile wide actual with ⟨_, found, many, wider⟩ | ⟨lost, -, -⟩
    · cases found.symm.trans kept
      rw [few, many]
      exact ⟨.same _, wider.trans (dominates.alike.trans narrower.symm), covers⟩
    · exact absurd kept (lost host)
  · rw [← dominates.alike] at few narrower
    rcases ret_unstacked compile wide actual with ⟨host, found, many, wider⟩ | ⟨-, many, wider⟩
    · -- The block that the ring predicts is registered, so the slow path changes nothing.
      obtain ⟨block, registered⟩ := Option.ne_none_iff_exists'.1
        (sound.recent_registered _ (sound.recent_of_hit found).1)
      have slow : Engine.resolve compile wide.unstacked actual =
          ⟨.ok block, wide.unstacked, []⟩ := by
        unfold Engine.resolve
        rw [registry_unstacked, registered]
      rw [slow] at few narrower
      rw [few, many]
      exact ⟨.predicted block.host host, wider.trans narrower.symm, covers⟩
    · rw [few, many]
      exact ⟨.same _, wider.trans narrower.symm, covers⟩

theorem Dominates.step (dominates : wide.Dominates narrow) (sound : wide.Sound recent)
    (compile : Compile κ) (action : Action) :
    Answer.AtLeast (Engine.step compile narrow action).value
        (Engine.step compile wide action).value ∧
      (Engine.step compile wide action).state.Dominates
        (Engine.step compile narrow action).state := by
  cases action with
  | register block =>
    obtain ⟨value, after⟩ := dominates.register block
    exact ⟨.of_eq (congrArg Answer.linked value), after⟩
  | resolve guest =>
    obtain ⟨value, after⟩ := dominates.resolve compile guest
    exact ⟨.of_eq (congrArg Answer.resolved value), after⟩
  | call site ret =>
    obtain ⟨value, after⟩ := dominates.call site ret
    exact ⟨.of_eq (congrArg Answer.called value), after⟩
  | ret actual => exact dominates.ret sound compile actual
  | jump target =>
    obtain ⟨value, after⟩ := dominates.jump compile target
    exact ⟨.of_eq (congrArg Answer.transferred value), after⟩
  | flushCode => exact ⟨.same _, dominates.flushCode⟩
  | flushStack => exact ⟨.same _, dominates.flushStack⟩

/-! ## Runs -/

theorem Dominates.run (dominates : wide.Dominates narrow) (sound : wide.Sound recent)
    (compile : Compile κ) (actions : List Action) :
    List.Forall₂ Answer.AtLeast (Engine.run compile narrow actions).value
        (Engine.run compile wide actions).value ∧
      (Engine.run compile wide actions).state.Dominates
        (Engine.run compile narrow actions).state := by
  induction actions generalizing narrow wide recent with
  | nil => exact ⟨.nil, dominates⟩
  | cons action actions ih =>
    obtain ⟨first, after⟩ := dominates.step sound compile action
    obtain ⟨rest, last⟩ := ih after (sound.step action)
    exact ⟨.cons first rest, last⟩

/-! ## Engines just built -/

theorem dominates_of_create {config : Config} {larger : UInt64}
    (enough : config.stackSize ≤ larger) {compiler : κ} {made ring : Outcome (Engine κ) Unit}
    (created : create config compiler = .ok made)
    (widened : create { config with stackSize := larger, overflow := .wrap } compiler = .ok ring) :
    ring.state.Dominates made.state := by
  obtain ⟨few, wf⟩ := of_create created
  obtain ⟨many, -⟩ := of_create widened
  have positive : 0 < config.stackSize.toNat := by
    have room := wf.capacity_pos
    rwa [show (Context.ofConfig config).shadow.capacity = config.stackSize.toNat from
      ShadowStack.capacity_ofCapacity _ _] at room
  rw [few, many]
  exact ⟨rfl,
    ShadowStack.covers_ofCapacity positive (UInt64.le_iff_toNat_le.1 enough) config.overflow⟩

/-- Two engines are built with the same compiler and the same configuration, except that the stack
of the second is a ring with at least as much room. However they are used, operation by operation
alike, the second answers as the first does or predicts a transfer that the first resolves. They
keep the same blocks, slots and waiting links; the next call or jump answers alike in both; and the
next return is predicted in the second, to the same host code, if it is in the first. -/
theorem run_dominates {config : Config} {larger : UInt64} (enough : config.stackSize ≤ larger)
    {compiler : κ} {made ring : Outcome (Engine κ) Unit}
    (created : create config compiler = .ok made)
    (widened : create { config with stackSize := larger, overflow := .wrap } compiler = .ok ring)
    (compile : Compile κ) (actions : List Action) :
    let narrow := run compile made.state actions
    let wide := run compile ring.state actions
    List.Forall₂ Answer.AtLeast narrow.value wide.value ∧
    wide.state.registry = narrow.state.registry ∧
    wide.state.ctx.slots = narrow.state.ctx.slots ∧
    wide.state.ctx.links = narrow.state.ctx.links ∧
    (∀ site ret, (wide.state.call site ret).value = (narrow.state.call site ret).value) ∧
    (∀ target, (jump compile wide.state target).value = (jump compile narrow.state target).value) ∧
    ∀ actual host, (ret compile narrow.state actual).value = .ok (.predicted host) →
      (ret compile wide.state actual).value = .ok (.predicted host) := by
  intro narrow wide
  obtain ⟨answers, dominates⟩ : List.Forall₂ Answer.AtLeast narrow.value wide.value ∧
      wide.state.Dominates narrow.state :=
    (dominates_of_create enough created widened).run (sound_create widened) compile actions
  refine ⟨answers, dominates.registry_eq, dominates.slots_eq, dominates.links_eq, ?_, ?_, ?_⟩
  · exact fun site ret => (dominates.call site ret).1
  · exact fun target => (dominates.jump compile target).1
  · exact fun actual host predicted => dominates.predicted predicted

/-- The smallest engine but for a ring with room for two frames. -/
def roomier : Engine Unit :=
  ⟨.empty, Context.ofConfig { Config.smallest with stackSize := 2, overflow := .wrap }, .empty, ()⟩

/-- A block is called from twice, the second time before the first call has returned. -/
def recursing : List Action := [.register ⟨⟨16⟩, ⟨10⟩⟩, .call ⟨1⟩ ⟨16⟩, .call ⟨1⟩ ⟨16⟩]

/-- Both engines predict the inner return, and the ring predicts the outer one as well. -/
theorem run_dominates_recursing :
    Config.smallest.stackSize ≤ 2 ∧
      create .smallest () = .ok ⟨(), smallest, [.contextCreated .smallest]⟩ ∧
      create { Config.smallest with stackSize := 2, overflow := .wrap } () =
        .ok ⟨(), roomier,
          [.contextCreated { Config.smallest with stackSize := 2, overflow := .wrap }]⟩ ∧
      (ret .identical (run .identical smallest recursing).state ⟨16⟩).value =
        .ok (.predicted ⟨10⟩) ∧
      (ret .identical (run .identical roomier recursing).state ⟨16⟩).value =
        .ok (.predicted ⟨10⟩) ∧
      (ret .identical (run .identical smallest (recursing ++ [.ret ⟨16⟩])).state ⟨16⟩).value =
        .ok (.resolved ⟨10⟩) ∧
      (ret .identical (run .identical roomier (recursing ++ [.ret ⟨16⟩])).state ⟨16⟩).value =
        .ok (.predicted ⟨10⟩) := by
  have enough : Config.smallest.stackSize ≤ 2 := by decide
  obtain ⟨-, -, -, -, -, -, predicted⟩ :=
    run_dominates enough create_smallest rfl .identical recursing
  exact ⟨enough, create_smallest, rfl, rfl, predicted ⟨16⟩ ⟨10⟩ rfl, rfl, rfl⟩

end Engine

end TransferCache
