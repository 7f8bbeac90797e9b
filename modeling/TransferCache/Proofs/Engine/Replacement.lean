import TransferCache.Proofs.Engine.CallSites
import TransferCache.Proofs.Engine.LinkCompleteness
import TransferCache.Proofs.Engine.Provenance

/-!
# Replaced blocks

A slot is written once, and nothing is taken out of the cache of jump targets while code lives. So
a registration that replaces a block leaves every cache as it is: what was cached for the address
before, the old host code included, still is. Only the first registration at an address is certain
to leave it coherent (`Coherent`).

Whatever is cached for an address later is the host code that was registered there at that time. It
becomes stale only where other host code is registered while it is cached (`LeavesStale`).

* `Sound.coherent_register_iff`: when an address is coherent after a registration.
* `Sound.caches_step`, `Sound.stale_step`: what an operation caches, and what it makes stale.
* `Sound.since_leavesStale`: where stale host code comes from.
* `run_replacement`: what a registration leaves in the caches, and what they predict later, for an
  engine just built.
-/

namespace TransferCache.Engine

variable {κ : Type} {compile : Compile κ} {engine : Engine κ} {recent : List Block}
  {guest : GuestAddr} {host : HostAddr} {action : Action}

/-- Every cached target for the address is unresolved, or absent, or this host code. -/
def Coherent (engine : Engine κ) (guest : GuestAddr) (host : HostAddr) : Prop :=
  (∀ site ∈ engine.compiled, site.ret = guest →
    engine.ctx.slots.value site.slot = .unresolved ∨ engine.ctx.slots.value site.slot = host) ∧
  ∀ cached, engine.ctx.targets.lookup guest = some cached → cached = host

/-- This host code is in a slot that returns to the address, or among the jump targets. -/
def Caches (engine : Engine κ) (guest : GuestAddr) (host : HostAddr) : Prop :=
  (∃ site ∈ engine.compiled, site.ret = guest ∧ engine.ctx.slots.value site.slot = host ∧
    host ≠ .unresolved) ∨
  engine.ctx.targets.lookup guest = some host

/-- This host code is cached for the address and is not what is registered there. -/
def Stale (engine : Engine κ) (guest : GuestAddr) (host : HostAddr) : Prop :=
  engine.Caches guest host ∧ engine.registry.lookup guest ≠ some ⟨guest, host⟩

/-- Other host code is registered at the address while this one is cached for it. -/
def LeavesStale (guest : GuestAddr) (host : HostAddr) (engine : Engine κ) (action : Action) :
    Prop :=
  engine.Caches guest host ∧ ∃ other ≠ host, action = .register ⟨guest, other⟩

/-- A return or a jump to the address would go to this host code on the word of a cache. -/
def Predicts (compile : Compile κ) (engine : Engine κ) (guest : GuestAddr) (host : HostAddr) :
    Prop :=
  (ret compile engine guest).value = .ok (.predicted host) ∨
    (jump compile engine guest).value = .ok (.predicted host)

/-! ## What a registration leaves in the caches -/

/-- The slots of an address are written by its first registration and by no later one. -/
theorem Sound.value_register (sound : engine.Sound recent) (block : Block) {site : CallSite}
    (compiled : site ∈ engine.compiled) (returns : site.ret = block.guest) :
    (engine.register block).state.ctx.slots.value site.slot =
      if engine.registry.lookup block.guest = none then block.host
      else engine.ctx.slots.value site.slot := by
  rw [sound.slots_register, sound.linking.value_register block compiled]
  exact if_congr (and_iff_left returns) rfl rfl

/-- A registration that replaces a block writes no slot at all. -/
theorem Sound.slots_register_of_ne_none (sound : engine.Sound recent) {block : Block}
    (registered : engine.registry.lookup block.guest ≠ none) :
    (engine.register block).state.ctx.slots = engine.ctx.slots := by
  have idle : engine.ctx.links.waiters block.guest = [] := by
    refine List.eq_nil_iff_forall_not_mem.2 fun slot waits => ?_
    exact registered (sound.linking.mem_waiters.1 waits).1
  rw [sound.slots_register, idle]
  rfl

/-- Nothing is cached for jumps to an address without a block. -/
theorem Sound.lookup_eq_none (sound : engine.Sound recent)
    (unregistered : engine.registry.lookup guest = none) :
    engine.ctx.targets.lookup guest = none := by
  refine Option.eq_none_iff_forall_ne_some.2 fun host found => ?_
  exact sound.recent_registered _ (sound.targets guest host found) unregistered

/-- An address is coherent after a registration exactly if it had no block before, or was coherent
with the new one already. -/
theorem Sound.coherent_register_iff (sound : engine.Sound recent) (block : Block) :
    (engine.register block).state.Coherent block.guest block.host ↔
      engine.registry.lookup block.guest = none ∨ engine.Coherent block.guest block.host := by
  have targets : (engine.register block).state.ctx.targets = engine.ctx.targets := rfl
  have sites : (engine.register block).state.compiled = engine.compiled := rfl
  unfold Coherent
  rw [targets, sites]
  by_cases unregistered : engine.registry.lookup block.guest = none
  · refine iff_of_true ⟨?_, ?_⟩ (Or.inl unregistered)
    · intro site compiled returns
      rw [sound.value_register block compiled returns, if_pos unregistered]
      exact Or.inr rfl
    · intro cached found
      cases (sound.lookup_eq_none unregistered).symm.trans found
  · rw [or_iff_right unregistered]
    apply and_congr_left'
    refine forall_congr' fun site => forall_congr' fun compiled => forall_congr' fun returns => ?_
    rw [sound.value_register block compiled returns, if_neg unregistered]

/-! ## What is newly cached -/

/-- A call site that is compiled when its return block is registered has the host code of the block
in its slot. -/
theorem Sound.value_call_of_new (sound : engine.Sound recent) {site : GuestAddr} {fresh : CallSite}
    (new : engine.callSites.find? site = none)
    (compiles : (engine.call site fresh.ret).value = .ok fresh) {block : Block}
    (registered : engine.registry.lookup fresh.ret = some block) :
    (engine.call site fresh.ret).state.ctx.slots.value fresh.slot = block.host := by
  rcases engine.call_cases site fresh.ret with
    ⟨_, known, -⟩ | ⟨_, -, -, refused, -⟩ | ⟨_, -, prepared, value, state⟩
  · cases new.symm.trans known
  · cases refused.symm.trans compiles
  · cases value.symm.trans compiles
    rw [state, (runCall_eq _ fresh).2, Context.state_push]
    change (engine.ctx.prepare engine.registry fresh.ret).state.slots.value fresh.slot = block.host
    rcases engine.ctx.prepare_cases engine.registry fresh.ret with
      ⟨-, refused, -⟩ | ⟨room, linked, other, known, made, left⟩ | ⟨-, unregistered, -, -⟩
    · cases refused.symm.trans prepared
    · cases known.symm.trans registered
      have next : fresh.slot = engine.ctx.slots.nextSlot :=
        congrArg CallSite.slot (Except.ok.inj (prepared.symm.trans made))
      rw [left, next]
      exact sound.linking.value_resolve_nextSlot room block.host
    · cases unregistered.symm.trans registered

/-- After an operation the slot of a call site whose return block is registered holds the host code
of that block, or what it held before. -/
theorem Sound.value_step (sound : engine.Sound recent) {site : CallSite} {block : Block}
    (compiled : site ∈ (Engine.step compile engine action).state.compiled)
    (registered :
      (Engine.step compile engine action).state.registry.lookup site.ret = some block) :
    (Engine.step compile engine action).state.ctx.slots.value site.slot = block.host ∨
      action ≠ .flushCode ∧ site ∈ engine.compiled ∧
        (Engine.step compile engine action).state.ctx.slots.value site.slot =
          engine.ctx.slots.value site.slot := by
  have after : (Engine.step compile engine action).state.Sound _ := sound.step action
  obtain ⟨address, found⟩ := after.find?_of_mem compiled
  rcases compiles_of_find? compile engine action found with ⟨rfl, new, value⟩ | ⟨going, before⟩
  · have same : (engine.call address site.ret).state.registry = engine.registry :=
      (engine.registry_call address site.ret).1
    change (engine.call address site.ret).state.registry.lookup site.ret = some block at registered
    rw [same] at registered
    exact Or.inl (sound.value_call_of_new new value registered)
  · by_cases unregistered : engine.registry.lookup site.ret = none
    · have held := after.linking.resolved site compiled block registered
      rcases mem_recentAfter_iff.1 held with registers | ⟨-, older⟩
      · have same := Option.some.inj (registers.lookup.symm.trans registered)
        exact Or.inl (congrArg Block.host same)
      · exact absurd unregistered (sound.recent_registered _ older)
    · have kept := (sound.continues_step compile going).slots address site before unregistered
      exact Or.inr ⟨going, mem_compiled_of_find? before, kept⟩

/-- A block that a jump resolves is registered afterwards. -/
theorem lookup_of_jump_resolved
    (resolved : (jump compile engine guest).value = .ok (.resolved host)) :
    (jump compile engine guest).state.registry.lookup guest = some ⟨guest, host⟩ := by
  rcases jump_cases compile engine guest with
    ⟨-, value, -⟩ | ⟨-, slow, rfl, ⟨_, -, value, -⟩ | ⟨block, found, value, state⟩⟩
  · cases value.symm.trans resolved
  · cases value.symm.trans resolved
  · cases value.symm.trans resolved
    have registered := lookup_of_resolve found
    obtain rfl : block.guest = guest := Registry.guest_of_lookup registered
    rw [state]
    exact registered

/-- Host code that is cached after an operation is what is registered then, or was cached before and
not flushed. -/
theorem Sound.caches_step (sound : engine.Sound recent)
    (cached : (Engine.step compile engine action).state.Caches guest host) :
    (Engine.step compile engine action).state.registry.lookup guest = some ⟨guest, host⟩ ∨
      action ≠ .flushCode ∧ engine.Caches guest host := by
  rcases cached with ⟨site, compiled, rfl, held, filled⟩ | found
  · have after : (Engine.step compile engine action).state.Sound _ := sound.step action
    cases registered : (Engine.step compile engine action).state.registry.lookup site.ret with
    | none =>
      have unresolved := after.linking.unresolved site compiled registered
      exact absurd (held.symm.trans unresolved) filled
    | some block =>
      have here : block.guest = site.ret := Registry.guest_of_lookup registered
      rcases sound.value_step compiled registered with same | ⟨going, older, kept⟩
      · rw [← here, ← held, same]
        exact Or.inl rfl
      · exact Or.inr ⟨going, Or.inl ⟨site, older, rfl, kept.symm.trans held, filled⟩⟩
  · rcases sound.stores_of_lookup compile action found with ⟨rfl, resolved⟩ | ⟨going, before⟩
    · exact Or.inl (lookup_of_jump_resolved resolved)
    · exact Or.inr ⟨going, Or.inr before⟩

/-! ## Where stale host code comes from -/

/-- There is a block at an address for which anything is cached. -/
theorem Sound.registered_of_caches (sound : engine.Sound recent)
    (cached : engine.Caches guest host) : engine.registry.lookup guest ≠ none := by
  rcases cached with ⟨site, compiled, rfl, held, filled⟩ | found
  · intro unregistered
    exact filled (held.symm.trans (sound.linking.unresolved site compiled unregistered))
  · exact sound.recent_registered _ (sound.targets guest host found)

/-- Host code that is stale after an operation was left stale by it, or was stale before and not
flushed. -/
theorem Sound.stale_step (sound : engine.Sound recent)
    (stale : (Engine.step compile engine action).state.Stale guest host) :
    LeavesStale guest host engine action ∨ action ≠ .flushCode ∧ engine.Stale guest host := by
  obtain ⟨cached, outdated⟩ := stale
  obtain ⟨going, before⟩ := (sound.caches_step cached).resolve_left outdated
  by_cases current : engine.registry.lookup guest = some ⟨guest, host⟩
  · -- the registered block has changed, and only a registration replaces a block
    have after : (Engine.step compile engine action).state.Sound _ := sound.step action
    obtain ⟨block, registered⟩ := Option.ne_none_iff_exists'.1 (after.registered_of_caches cached)
    obtain rfl : block.guest = guest := Registry.guest_of_lookup registered
    have other : block.host ≠ host := by
      rintro rfl
      exact outdated registered
    rcases registers_of_lookup registered with registers | ⟨-, unchanged⟩
    · cases registers with
      | named => exact Or.inl ⟨before, block.host, other, rfl⟩
      | compiled _ unregistered _ _ => cases unregistered.symm.trans current
    · exact absurd (congrArg Block.host (Option.some.inj (unchanged.symm.trans current))) other
  · exact Or.inr ⟨going, before, current⟩

/-- Stale host code was left by a registration since the last flush of the code, or was stale at the
start and the code was not flushed. -/
theorem Sound.since_leavesStale (sound : engine.Sound recent) {actions : List Action}
    (stale : (Engine.run compile engine actions).state.Stale guest host) :
    Since compile engine (LeavesStale guest host) (· = .flushCode) actions ∨
      engine.Stale guest host ∧ ∀ action ∈ actions, action ≠ .flushCode :=
  sound.since_or_state (·.Stale guest host) (fun sound _ => sound.stale_step) stale

/-- Host code that is stale some time after a registration was left by that one or by a later one.
-/
theorem Sound.since_leavesStale_register (sound : engine.Sound recent) {block : Block}
    {later : List Action}
    (stale :
      (Engine.run compile (engine.register block).state later).state.Stale block.guest host) :
    Since compile engine (LeavesStale block.guest host) (· = .flushCode)
      (.register block :: later) := by
  rcases (sound.register block).since_leavesStale stale with since | ⟨⟨cached, outdated⟩, going⟩
  · exact since.cons (.register block)
  · have registered : (engine.register block).state.registry.lookup block.guest = some block :=
      engine.registry.lookup_insert_self block
    have other : block.host ≠ host := by
      rintro rfl
      exact outdated registered
    have left : (Engine.step compile engine (.register block)).state.Caches block.guest host :=
      cached
    obtain ⟨-, before⟩ := (sound.caches_step left).resolve_left outdated
    exact ⟨[], .register block, later, rfl, ⟨before, block.host, other, rfl⟩, going⟩

/-! ## What the caches predict -/

theorem Sound.caches_of_predicts (sound : engine.Sound recent)
    (predicts : engine.Predicts compile guest host) : engine.Caches guest host := by
  rcases predicts with returned | jumped
  · obtain ⟨filled, site, compiled, returns, -, held⟩ := sound.site_of_ret returned
    exact Or.inl ⟨site, compiled, returns, held, filled⟩
  · exact Or.inr (lookup_of_jump jumped)

/-- What is predicted was registered since the last flush of the code, and is registered still or
stale. -/
theorem Sound.of_predicts (sound : engine.Sound recent)
    (predicts : engine.Predicts compile guest host) :
    (⟨guest, host⟩ : Block) ∈ recent ∧
      (engine.registry.lookup guest = some ⟨guest, host⟩ ∨ engine.Stale guest host) := by
  constructor
  · rcases predicts with returned | jumped
    · exact (sound.recent_of_ret returned).1
    · exact sound.recent_of_jump jumped
  · by_cases current : engine.registry.lookup guest = some ⟨guest, host⟩
    · exact Or.inl current
    · exact Or.inr ⟨sound.caches_of_predicts predicts, current⟩

/-- Likewise for a whole run, if nothing was registered or stale at its start. -/
theorem Sound.of_predicts_run (sound : engine.Sound []) (current : ¬engine.Stale guest host)
    {actions : List Action}
    (predicts : (Engine.run compile engine actions).state.Predicts compile guest host) :
    Since compile engine (Registers compile ⟨guest, host⟩) (· = .flushCode) actions ∧
      ((Engine.run compile engine actions).state.registry.lookup guest = some ⟨guest, host⟩ ∨
        Since compile engine (LeavesStale guest host) (· = .flushCode) actions) := by
  have last : (Engine.run compile engine actions).state.Sound _ := sound.run actions
  obtain ⟨known, registered⟩ := last.of_predicts predicts
  refine ⟨mem_recentOf_iff.1 known, registered.imp_right fun stale => ?_⟩
  exact (sound.since_leavesStale stale).resolve_right fun started => current started.1

/-! ## Engines just built -/

/-- An engine just built caches nothing. -/
theorem not_caches_of_create {config : Config} {compiler : κ} {made : Outcome (Engine κ) Unit}
    (created : create config compiler = .ok made) : ¬made.state.Caches guest host := by
  rw [(of_create created).1]
  rintro (⟨site, compiled, -⟩ | found)
  · cases compiled
  · cases (TargetCache.lookup_ofBits _ _).symm.trans found

/-- However an engine is used after it was built, a block that is registered next is written to the
slots of its address if it is the first there, and changes no cached target at all if it is not. So
the address is coherent afterwards if the block is the first there, or if the address was coherent
with it before. What the caches predict for the address at any time after that is what is registered
there, unless this or a later registration, since the last flush of the code, was one of other host
code while this one was cached. What they predict for any address was registered for it since the
last flush of the code, and is what is registered there, unless it was left stale since that flush.
-/
theorem run_replacement {config : Config} {compiler : κ} {made : Outcome (Engine κ) Unit}
    (created : create config compiler = .ok made) (compile : Compile κ) (actions : List Action)
    (block : Block) :
    let engine := (run compile made.state actions).state
    let after := (engine.register block).state
    (engine.registry.lookup block.guest = none →
      (∀ site ∈ engine.compiled, site.ret = block.guest →
        after.ctx.slots.value site.slot = block.host) ∧
      after.ctx.targets.lookup block.guest = none) ∧
    (engine.registry.lookup block.guest ≠ none → after.ctx.slots = engine.ctx.slots) ∧
    after.ctx.targets = engine.ctx.targets ∧
    (after.Coherent block.guest block.host ↔
      engine.registry.lookup block.guest = none ∨ engine.Coherent block.guest block.host) ∧
    ∀ later, let last := (run compile after later).state
      (∀ host, last.Predicts compile block.guest host →
        last.registry.lookup block.guest = some ⟨block.guest, host⟩ ∨
          Since compile engine (LeavesStale block.guest host) (· = .flushCode)
            (.register block :: later)) ∧
      ∀ guest host, last.Predicts compile guest host →
        let whole := actions ++ .register block :: later
        Since compile made.state (Registers compile ⟨guest, host⟩) (· = .flushCode) whole ∧
          (last.registry.lookup guest = some ⟨guest, host⟩ ∨
            Since compile made.state (LeavesStale guest host) (· = .flushCode) whole) := by
  intro engine after
  have new := sound_create created
  have sound : engine.Sound (recentOf compile made.state [] actions) := new.run actions
  refine ⟨fun unregistered => ⟨fun site compiled returns => ?_, ?_⟩,
    sound.slots_register_of_ne_none, rfl, sound.coherent_register_iff block, ?_⟩
  · exact (sound.value_register block compiled returns).trans (if_pos unregistered)
  · exact sound.lookup_eq_none unregistered
  intro later last
  refine ⟨fun host predicts => ?_, fun guest host predicts => ?_⟩
  · have soundLast : last.Sound _ := (sound.register block).run later
    refine (soundLast.of_predicts predicts).2.imp_right fun stale => ?_
    exact sound.since_leavesStale_register stale
  · intro whole
    have ends : (run compile made.state whole).state = last :=
      state_run_append compile made.state actions _
    rw [← ends] at predicts ⊢
    exact new.of_predicts_run (fun stale => not_caches_of_create created stale.1) predicts

/-- A block is registered, called from, jumped to, and replaced. -/
def replacing : List Action :=
  [.register ⟨⟨16⟩, ⟨10⟩⟩, .call ⟨1⟩ ⟨16⟩, .jump ⟨16⟩, .register ⟨⟨16⟩, ⟨11⟩⟩]

/-- The replaced host code stays in the slot and among the jump targets, and is predicted. -/
theorem stale_after_replacing :
    create .smallest () = .ok ⟨(), smallest, [.contextCreated .smallest]⟩ ∧
      (run .identical smallest replacing).state.registry.lookup ⟨16⟩ = some ⟨⟨16⟩, ⟨11⟩⟩ ∧
      ¬(run .identical smallest replacing).state.Coherent ⟨16⟩ ⟨11⟩ ∧
      (ret .identical (run .identical smallest replacing).state ⟨16⟩).value =
        .ok (.predicted ⟨10⟩) ∧
      (jump .identical (run .identical smallest replacing).state ⟨16⟩).value =
        .ok (.predicted ⟨10⟩) := by
  refine ⟨create_smallest, rfl, ?_, rfl, rfl⟩
  rintro ⟨-, targets⟩
  cases targets ⟨10⟩ rfl

/-- The first registration at an address to which a call site returns leaves it coherent. The second
one leaves the first host code in the slot of the call site, as the predicted return tells. -/
theorem run_replacement_first :
    create .smallest () = .ok ⟨(), smallest, [.contextCreated .smallest]⟩ ∧
      (run .identical smallest [.call ⟨1⟩ ⟨16⟩]).state.registry.lookup ⟨16⟩ = none ∧
      ((run .identical smallest [.call ⟨1⟩ ⟨16⟩]).state.register
        ⟨⟨16⟩, ⟨10⟩⟩).state.Coherent ⟨16⟩ ⟨10⟩ ∧
      Since .identical (run .identical smallest [.call ⟨1⟩ ⟨16⟩]).state (LeavesStale ⟨16⟩ ⟨10⟩)
        (· = .flushCode) [.register ⟨⟨16⟩, ⟨10⟩⟩, .register ⟨⟨16⟩, ⟨11⟩⟩] := by
  rcases run_replacement create_smallest .identical [.call ⟨1⟩ ⟨16⟩] ⟨⟨16⟩, ⟨10⟩⟩ with
    ⟨-, -, -, coherent, later⟩
  obtain ⟨predicted, -⟩ := later [.register ⟨⟨16⟩, ⟨11⟩⟩]
  refine ⟨create_smallest, rfl, coherent.2 (Or.inl rfl), ?_⟩
  refine (predicted ⟨10⟩ (Or.inl rfl)).resolve_left fun current => ?_
  cases current

end TransferCache.Engine
