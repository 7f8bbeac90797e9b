import Mathlib.Data.List.Forall2
import TransferCache.Proofs.Context.Untargeted
import TransferCache.Proofs.Engine.Lookups
import TransferCache.Proofs.Engine.Protocols
import TransferCache.Proofs.Engine.Transparency

/-!
# A larger target cache loses no hit

Two engines that differ only in the sizes of their target caches are put through the same
operations. The larger cache always `Subsumes` the smaller one, updates are pending in both or in
neither, and the engines agree on everything else (`Engine.untargeted`). The two caches are not
updated at the same time: where the larger one predicts a jump, the smaller one may have to look for
the block. It finds it registered, since whatever is cached is registered, and catches up.

The host code that is predicted may differ, if the block has been replaced since the larger cache
stored it.

* `jump_untargeted`: a jump is predicted, or goes the same slow way whatever is cached.
* `Subsumes.step`: one operation.
* `Subsumes.run`: any number of them.
* `run_subsumes`: the same for two engines just built.
-/

namespace TransferCache

/-- The second answer is the first one, or predicts a transfer for which the first found host code
as well. -/
inductive Answer.NoLess : Answer → Answer → Prop
  | same (answer : Answer) : NoLess answer answer
  | predicted (transfer : Transfer) (host : HostAddr) :
    NoLess (.transferred (.ok transfer)) (.transferred (.ok (.predicted host)))

theorem Answer.NoLess.of_eq {first second : Answer} (equal : second = first) :
    NoLess first second := by
  rw [equal]
  exact .same first

/-- Where the first transfer is predicted, the second one is. -/
theorem Answer.NoLess.exists_predicted {host : HostAddr} {went : Except UnknownBlock Transfer}
    (noLess : NoLess (.transferred (.ok (.predicted host))) (.transferred went)) :
    ∃ other, went = .ok (.predicted other) := by
  cases noLess with
  | same => exact ⟨host, rfl⟩
  | predicted _ other => exact ⟨other, rfl⟩

namespace Lookups

variable {wide narrow : Lookups} {target : GuestAddr}

/-- After a lookup of this target. -/
def looked (lookups : Lookups) (target : GuestAddr) : Lookups :=
  if (lookups.targets.lookup target).isSome then lookups.hit else lookups.miss

/-- After the slow path has answered. -/
def answered (lookups : Lookups) : Except UnknownBlock Block → Lookups
  | .error _ => lookups
  | .ok block => lookups.update block

@[simp] theorem targets_looked (lookups : Lookups) (target : GuestAddr) :
    (lookups.looked target).targets = lookups.targets := by
  unfold looked
  split <;> rfl

/-- A lookup that does not predict leaves an update pending. -/
theorem updatePending_looked {lookups : Lookups}
    (slow : lookups.targets.lookup target = none ∨ lookups.updatePending = true) :
    (lookups.looked target).updatePending = true := by
  unfold looked
  split
  · next cached =>
    rcases slow with new | pending
    · rw [new] at cached
      cases cached
    · exact pending
  · rfl

/-- Updates are pending in both or in neither, and one target cache subsumes the other. -/
structure Subsumes (wide narrow : Lookups) : Prop where
  pending_eq : wide.updatePending = narrow.updatePending
  targets : wide.targets.Subsumes narrow.targets

theorem Subsumes.hit (subsumes : wide.Subsumes narrow) : wide.hit.Subsumes narrow.hit :=
  ⟨subsumes.pending_eq, subsumes.targets⟩

/-- Neither lookup predicts, and the slow path answers both alike. -/
theorem Subsumes.answered (subsumes : wide.Subsumes narrow)
    (wideSlow : wide.targets.lookup target = none ∨ wide.updatePending = true)
    (narrowSlow : narrow.targets.lookup target = none ∨ narrow.updatePending = true)
    (answer : Except UnknownBlock Block) :
    ((wide.looked target).answered answer).Subsumes ((narrow.looked target).answered answer) := by
  have targets : (wide.looked target).targets.Subsumes (narrow.looked target).targets := by
    rw [targets_looked, targets_looked]
    exact subsumes.targets
  cases answer with
  | error fault =>
    have pending : (wide.looked target).updatePending = (narrow.looked target).updatePending := by
      rw [updatePending_looked wideSlow, updatePending_looked narrowSlow]
    exact ⟨pending, targets⟩
  | ok block => exact ⟨rfl, targets.update block⟩

/-- The wide lookup predicts, and the block for the narrow one is found. -/
theorem Subsumes.catchUp (subsumes : wide.Subsumes narrow) {block : Block}
    (cached : wide.targets.lookup block.guest ≠ none) (settled : wide.updatePending = false) :
    wide.hit.Subsumes ((narrow.looked target).update block) := by
  refine ⟨settled, ?_⟩
  have stored : ((narrow.looked target).update block).targets = narrow.targets.update block := by
    rw [← targets_looked narrow target]
    rfl
  rw [stored]
  exact subsumes.targets.update_narrow cached

end Lookups

theorem Context.lookups_lookupTarget (ctx : Context) (target : GuestAddr) :
    (ctx.lookupTarget target).state.lookups = ctx.lookups.looked target := by
  have targets : ctx.lookups.targets = ctx.targets := rfl
  unfold Lookups.looked
  rw [targets]
  rcases ctx.lookupTarget_cases target with ⟨_, cached, -, state⟩ | ⟨new, -, state⟩
  · rw [state, cached]
    rfl
  · rw [state, new]
    rfl

namespace Engine

variable {κ : Type} {compile : Compile κ} {engine narrow wide : Engine κ} {recent : List Block}

/-! ## Engines without their target caches -/

/-- The engine without cached targets, without a pending update and without the counts of lookups
and updates. -/
def untargeted (engine : Engine κ) : Engine κ := engine.viewed Context.untargeted

@[simp] theorem registry_untargeted (engine : Engine κ) :
    engine.untargeted.registry = engine.registry := rfl

@[simp] theorem compiler_untargeted (engine : Engine κ) :
    engine.untargeted.compiler = engine.compiler := rfl

theorem resolve_untargeted (compile : Compile κ) (engine : Engine κ) (guest : GuestAddr) :
    resolve compile engine.untargeted guest = (resolve compile engine guest).within untargeted :=
  resolve_viewed Context.completeLinks_untargeted compile engine guest

theorem call_untargeted (engine : Engine κ) (site ret : GuestAddr) :
    engine.untargeted.call site ret = (engine.call site ret).within untargeted := by
  rcases call_viewed site ret (engine.ctx.prepare_untargeted engine.registry ret)
      fun ctx called _ => ctx.push_untargeted called with ⟨_, -, refused⟩ | ⟨_, -, called⟩
  · exact refused
  · exact called

theorem ret_untargeted (compile : Compile κ) (engine : Engine κ) (actual : GuestAddr) :
    ret compile engine.untargeted actual = (ret compile engine actual).within untargeted :=
  ret_viewed (engine.ctx.pop_untargeted actual) Context.completeLinks_untargeted compile

/-- Only jumps and flushes of the code look at what the view leaves out. -/
theorem step_untargeted (compile : Compile κ) (engine : Engine κ) {action : Action}
    (still : ∀ target, action ≠ .jump target) (going : action ≠ .flushCode) :
    step compile engine.untargeted action = (step compile engine action).within untargeted := by
  cases action with
  | register block =>
    exact congrArg (Outcome.map _) (register_viewed Context.completeLinks_untargeted engine block)
  | resolve guest => exact congrArg (Outcome.map _) (resolve_untargeted compile engine guest)
  | call site ret => exact congrArg (Outcome.map _) (call_untargeted engine site ret)
  | ret actual => exact congrArg (Outcome.map _) (ret_untargeted compile engine actual)
  | jump target => exact absurd rfl (still target)
  | flushCode => exact absurd rfl going
  | flushStack => rfl

/-- A jump is predicted by its lookup, or goes the same slow way whatever is cached, and a block
that is found there is stored. -/
theorem jump_untargeted (compile : Compile κ) (engine : Engine κ) (target : GuestAddr) :
    (∃ host, engine.ctx.targets.lookup target = some host ∧ engine.ctx.updatePending = false ∧
      (jump compile engine target).value = .ok (.predicted host) ∧
      (jump compile engine target).state.untargeted = engine.untargeted ∧
      (jump compile engine target).state.ctx.lookups = engine.ctx.lookups.hit) ∨
    ((engine.ctx.targets.lookup target = none ∨ engine.ctx.updatePending = true) ∧
      (jump compile engine target).value =
        (resolve compile engine.untargeted target).value.map (fun block => .resolved block.host) ∧
      (jump compile engine target).state.untargeted =
        (resolve compile engine.untargeted target).state ∧
      (jump compile engine target).state.ctx.lookups =
        (engine.ctx.lookups.looked target).answered
          (resolve compile engine.untargeted target).value) := by
  have unseen : (engine.withContext (engine.ctx.lookupTarget target).state).untargeted =
      engine.untargeted := congrArg engine.withContext (engine.ctx.untargeted_lookupTarget target)
  have slowly := resolve_untargeted compile
    (engine.withContext (engine.ctx.lookupTarget target).state) target
  rw [unseen] at slowly
  have looked := (lookups_resolve compile
    (engine.withContext (engine.ctx.lookupTarget target).state) target).trans
      (engine.ctx.lookups_lookupTarget target)
  rcases jump_cases compile engine target with ⟨settled, value, state⟩ | ⟨pending, _, rfl, went⟩
  · refine Or.inl ?_
    rcases engine.ctx.lookupTarget_cases target with ⟨host, cached, found, after⟩ | ⟨-, -, after⟩
    · rw [after] at settled
      rw [found] at value
      refine ⟨host, cached, settled, value, ?_, ?_⟩
      · rw [state]
        exact unseen
      · rw [state, after]
        rfl
    · rw [after] at settled
      cases settled
  · refine Or.inr ⟨?_, ?_⟩
    · rcases engine.ctx.lookupTarget_cases target with ⟨_, -, -, after⟩ | ⟨new, -, -⟩
      · rw [after] at pending
        exact Or.inr pending
      · exact Or.inl new
    · rw [slowly, Outcome.value_within, Outcome.state_within]
      rcases went with ⟨fault, failed, value, state⟩ | ⟨block, resolved, value, state⟩
      · rw [failed, value, state]
        exact ⟨rfl, rfl, looked⟩
      · rw [resolved, value, state]
        refine ⟨rfl, ?_, congrArg (Lookups.update · block) looked⟩
        exact congrArg (Engine.withContext _) (Context.untargeted_updateTarget _ block)

/-! ## One operation -/

/-- Engines that agree on everything but their target caches, of which the wide one subsumes the
narrow one. -/
structure Subsumes (wide narrow : Engine κ) : Prop where
  alike : wide.untargeted = narrow.untargeted
  lookups : wide.ctx.lookups.Subsumes narrow.ctx.lookups

theorem Subsumes.registry_eq (subsumes : wide.Subsumes narrow) :
    wide.registry = narrow.registry := by
  rw [← registry_untargeted wide, subsumes.alike, registry_untargeted]

theorem Subsumes.compiler_eq (subsumes : wide.Subsumes narrow) :
    wide.compiler = narrow.compiler := by
  rw [← compiler_untargeted wide, subsumes.alike, compiler_untargeted]

theorem Subsumes.updatePending_eq (subsumes : wide.Subsumes narrow) :
    wide.ctx.updatePending = narrow.ctx.updatePending :=
  subsumes.lookups.pending_eq

theorem Subsumes.flushCode (subsumes : wide.Subsumes narrow) :
    wide.flushCode.state.Subsumes narrow.flushCode.state :=
  ⟨congrArg (·.flushCode.state) subsumes.alike, rfl, subsumes.lookups.targets.clear⟩

/-- If only the wide cache predicts, then the block is registered, and the narrow cache stores it.
-/
theorem Subsumes.jump (subsumes : wide.Subsumes narrow) (sound : wide.Sound recent)
    (compile : Compile κ) (target : GuestAddr) :
    Answer.NoLess (.transferred (Engine.jump compile narrow target).value)
        (.transferred (Engine.jump compile wide target).value) ∧
      (Engine.jump compile wide target).state.Subsumes
        (Engine.jump compile narrow target).state := by
  rcases jump_untargeted compile narrow target with
    ⟨host, cached, settled, few, narrower, counted⟩ | ⟨slow, few, narrower, stored⟩
  · rcases jump_untargeted compile wide target with
      ⟨other, -, -, many, wider, counts⟩ | ⟨lost, -, -, -⟩
    · refine ⟨?_, ?_, ?_⟩
      · rw [few, many]
        exact .predicted _ other
      · rw [wider, narrower, subsumes.alike]
      · rw [counts, counted]
        exact subsumes.lookups.hit
    · have held : narrow.ctx.targets.lookup target ≠ none := by
        rw [cached]
        exact Option.some_ne_none host
      have found : wide.ctx.targets.lookup target ≠ none :=
        subsumes.lookups.targets.cached target held
      rcases lost with new | pending
      · exact absurd new found
      · cases (subsumes.updatePending_eq.trans settled).symm.trans pending
  · rw [← subsumes.alike] at few narrower stored
    rcases jump_untargeted compile wide target with
      ⟨host, cached, settled, many, wider, counts⟩ | ⟨loses, many, wider, stores⟩
    · -- What the wide cache has cached is registered, so the narrow engine finds it without asking
      -- its compiler, and stores it.
      obtain ⟨block, registered⟩ := sound.exists_block_of_lookup cached
      have here : block.guest = target := Registry.guest_of_lookup registered
      have found : Engine.resolve compile wide.untargeted target =
          ⟨.ok block, wide.untargeted, []⟩ := by
        unfold Engine.resolve
        rw [registry_untargeted, registered]
      rw [found] at few narrower stored
      refine ⟨?_, ?_, ?_⟩
      · rw [few, many]
        exact .predicted _ host
      · rw [wider, narrower]
      · have held : wide.ctx.targets.lookup block.guest ≠ none := by
          rw [here, cached]
          exact Option.some_ne_none host
        rw [counts, stored]
        exact subsumes.lookups.catchUp held settled
    · refine ⟨?_, ?_, ?_⟩
      · rw [few, many]
        exact .same _
      · rw [wider, narrower]
      · rw [stores, stored]
        exact subsumes.lookups.answered loses slow _

theorem Subsumes.step (subsumes : wide.Subsumes narrow) (sound : wide.Sound recent)
    (compile : Compile κ) (action : Action) :
    Answer.NoLess (Engine.step compile narrow action).value
        (Engine.step compile wide action).value ∧
      (Engine.step compile wide action).state.Subsumes
        (Engine.step compile narrow action).state := by
  have aside : (∀ target, action ≠ .jump target) → action ≠ .flushCode →
      Answer.NoLess (Engine.step compile narrow action).value
          (Engine.step compile wide action).value ∧
        (Engine.step compile wide action).state.Subsumes
          (Engine.step compile narrow action).state := by
    intro still going
    have alike : (Engine.step compile wide action).within untargeted =
        (Engine.step compile narrow action).within untargeted := by
      rw [← step_untargeted compile wide still going,
        ← step_untargeted compile narrow still going, subsumes.alike]
    have value : ((Engine.step compile wide action).within untargeted).value =
        ((Engine.step compile narrow action).within untargeted).value :=
      congrArg Outcome.value alike
    refine ⟨.of_eq value, congrArg Outcome.state alike, ?_⟩
    rw [lookups_step compile wide still going, lookups_step compile narrow still going]
    exact subsumes.lookups
  cases action with
  | jump target => exact subsumes.jump sound compile target
  | flushCode => exact ⟨.same _, subsumes.flushCode⟩
  | register | resolve | call | ret | flushStack => exact aside nofun nofun

/-! ## Runs -/

theorem Subsumes.run (subsumes : wide.Subsumes narrow) (sound : wide.Sound recent)
    (compile : Compile κ) (actions : List Action) :
    List.Forall₂ Answer.NoLess (Engine.run compile narrow actions).value
        (Engine.run compile wide actions).value ∧
      (Engine.run compile wide actions).state.Subsumes
        (Engine.run compile narrow actions).state := by
  induction actions generalizing narrow wide recent with
  | nil => exact ⟨.nil, subsumes⟩
  | cons action actions ih =>
    obtain ⟨first, after⟩ := subsumes.step sound compile action
    obtain ⟨rest, last⟩ := ih after (sound.step action)
    exact ⟨.cons first rest, last⟩

/-! ## Engines just built -/

theorem subsumes_of_create {config : Config} {more : UInt32} (enough : config.indexBits ≤ more)
    {compiler : κ} {made enlarged : Outcome (Engine κ) Unit}
    (created : create config compiler = .ok made)
    (grown : create { config with indexBits := more } compiler = .ok enlarged) :
    enlarged.state.Subsumes made.state := by
  rw [(of_create created).1, (of_create grown).1]
  exact ⟨rfl, rfl, TargetCache.subsumes_ofBits (UInt32.le_iff_toNat_le.1 enough)⟩

/-- Engines that remember what they ask are related as they are without remembering. -/
theorem Subsumes.recorded (subsumes : wide.Subsumes narrow) :
    wide.recorded.Subsumes narrow.recorded :=
  ⟨congrArg Engine.recorded subsumes.alike, subsumes.lookups⟩

theorem Sound.recorded (sound : engine.Sound recent) : engine.recorded.Sound recent :=
  ⟨sound.keyed, sound.linking, sound.shadow_wf, sound.frames, sound.targets_sized, sound.targets,
    sound.registered, sound.recent_registered⟩

/-- Two engines just built, one of which has more index bits, are used alike. They answer every
operation alike, except that a transfer for which the one with the smaller target cache finds host
code may be predicted in the other one; every jump that is predicted in the former is predicted in
the latter. They go on having the same registry, an update pending in both or in neither, and
compilers in the same state that were asked for the same addresses. -/
theorem run_subsumes {config : Config} {more : UInt32} (enough : config.indexBits ≤ more)
    {compiler : κ} {made enlarged : Outcome (Engine κ) Unit}
    (created : create config compiler = .ok made)
    (grown : create { config with indexBits := more } compiler = .ok enlarged)
    (compile : Compile κ) (actions : List Action) :
    let narrow := run compile made.state actions
    let wide := run compile enlarged.state actions
    List.Forall₂ Answer.NoLess narrow.value wide.value ∧
      wide.state.registry = narrow.state.registry ∧
      wide.state.ctx.updatePending = narrow.state.ctx.updatePending ∧
      wide.state.compiler = narrow.state.compiler ∧
      asked compile enlarged.state actions = asked compile made.state actions ∧
      ∀ target host, (jump compile narrow.state target).value = .ok (.predicted host) →
        ∃ other, (jump compile wide.state target).value = .ok (.predicted other) := by
  intro narrow wide
  have start : enlarged.state.Subsumes made.state := subsumes_of_create enough created grown
  have sound : enlarged.state.Sound [] := sound_create grown
  obtain ⟨answers, subsumes⟩ : List.Forall₂ Answer.NoLess narrow.value wide.value ∧
      wide.state.Subsumes narrow.state := start.run sound compile actions
  obtain ⟨-, remembering⟩ := start.recorded.run sound.recorded compile.recorded actions
  refine ⟨answers, subsumes.registry_eq, subsumes.updatePending_eq, subsumes.compiler_eq,
    congrArg Prod.snd remembering.compiler_eq, ?_⟩
  intro target host predicted
  have noLess := (subsumes.jump (sound.run actions) compile target).1
  rw [predicted] at noLess
  exact noLess.exists_predicted

/-- The smallest engine but for two index bits. -/
def finer : Engine Unit :=
  ⟨.empty, Context.ofConfig { Config.smallest with indexBits := 2 }, .empty, ()⟩

/-- Two targets that agree on their lowest bit, but not on the next one, are jumped to in turn. -/
def alternating : List Action :=
  [.register ⟨⟨2⟩, ⟨10⟩⟩, .register ⟨⟨4⟩, ⟨11⟩⟩, .jump ⟨2⟩, .jump ⟨4⟩]

/-- With one index bit the second target displaces the first, which is resolved once more before it
is predicted. With two bits it is predicted at once, and goes on being predicted. -/
theorem run_subsumes_alternating :
    Config.smallest.indexBits ≤ 2 ∧
      create .smallest () = .ok ⟨(), smallest, [.contextCreated .smallest]⟩ ∧
      create { Config.smallest with indexBits := 2 } () =
        .ok ⟨(), finer, [.contextCreated { Config.smallest with indexBits := 2 }]⟩ ∧
      (jump .identical (run .identical smallest alternating).state ⟨2⟩).value =
        .ok (.resolved ⟨10⟩) ∧
      (jump .identical (run .identical finer alternating).state ⟨2⟩).value =
        .ok (.predicted ⟨10⟩) ∧
      (jump .identical (run .identical smallest (alternating ++ [.jump ⟨2⟩])).state ⟨2⟩).value =
        .ok (.predicted ⟨10⟩) ∧
      ∃ other,
        (jump .identical (run .identical finer (alternating ++ [.jump ⟨2⟩])).state ⟨2⟩).value =
          .ok (.predicted other) := by
  have enough : Config.smallest.indexBits ≤ 2 := by decide
  have grown : create { Config.smallest with indexBits := 2 } () =
      .ok ⟨(), finer, [.contextCreated { Config.smallest with indexBits := 2 }]⟩ := rfl
  obtain ⟨-, -, -, -, -, predicted⟩ :=
    run_subsumes enough create_smallest grown .identical (alternating ++ [.jump ⟨2⟩])
  exact ⟨enough, create_smallest, grown, rfl, rfl, rfl, predicted ⟨2⟩ ⟨10⟩ rfl⟩

end Engine

end TransferCache
