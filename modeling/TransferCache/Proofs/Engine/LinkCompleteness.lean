import TransferCache.Proofs.Engine.Sound

/-!
# No link is lost

Two facts about the slots of every engine that runs from its creation. In each state the table of
waiters names exactly the slots that still need a block, each of them once (`LinksComplete`). From
one state to the next, as long as the code is not flushed, a slot that has been written keeps its
value (`Continues`).

* `Sound.linksComplete`: the first holds in every sound engine.
* `Sound.continues_run`: the second holds over every run without a flush of the code.
* `run_linksComplete`: both, for an engine just built.
-/

namespace TransferCache.Engine

variable {κ : Type} {compile : Compile κ} {engine : Engine κ} {recent : List Block}

/-! ## What the table names -/

/-- Every compiled call site owns a slot of its own. The slot is unresolved and waits, once and
under the return address, or its return block is registered and the slot holds a recent host of it.
-/
structure LinksComplete (engine : Engine κ) (recent : List Block) : Prop where
  allocated_eq : engine.ctx.slots.allocated = engine.callSites.size
  allocated_le : engine.ctx.slots.allocated ≤ engine.ctx.slots.capacity
  slot_lt : ∀ guest site, engine.callSites.find? guest = some site →
    site.slot.index.toNat < engine.ctx.slots.allocated
  slots_ne : ∀ guest other site known, engine.callSites.find? guest = some site →
    engine.callSites.find? other = some known → guest ≠ other → site.slot ≠ known.slot
  waiting : ∀ guest site, engine.callSites.find? guest = some site →
    engine.registry.lookup site.ret = none →
    engine.ctx.slots.value site.slot = .unresolved ∧
      engine.ctx.links.nodes.filter (fun waiter => waiter.slot = site.slot) =
        [⟨site.ret, site.slot⟩]
  linked : ∀ guest site, engine.callSites.find? guest = some site →
    engine.registry.lookup site.ret ≠ none →
    (∀ waiter ∈ engine.ctx.links.nodes, waiter.slot ≠ site.slot) ∧
      (⟨site.ret, engine.ctx.slots.value site.slot⟩ : Block) ∈ recent
  /-- The table names nothing else. -/
  owned : ∀ waiter ∈ engine.ctx.links.nodes, ∃ guest site,
    engine.callSites.find? guest = some site ∧ engine.registry.lookup site.ret = none ∧
      waiter = ⟨site.ret, site.slot⟩
  pending_eq : engine.ctx.links.pending =
    engine.compiled.countP fun site => (engine.registry.lookup site.ret).isNone
  /-- Whatever block is registered next, none of its waiters is dropped. -/
  undropped : ∀ block, ∀ event ∈ (engine.ctx.completeLinks block).events,
    ∀ guest slot capacity, event ≠ .waiterDropped guest slot capacity

theorem Sound.find?_of_mem (sound : engine.Sound recent) {site : CallSite}
    (compiled : site ∈ engine.compiled) : ∃ guest, engine.callSites.find? guest = some site := by
  obtain ⟨⟨guest, _⟩, member, rfl⟩ := List.mem_map.1 compiled
  exact ⟨guest, sound.keyed.find?_of_mem member⟩

/-- Call sites at different addresses own different slots. -/
theorem Sound.slot_ne (sound : engine.Sound recent) {guest other : GuestAddr}
    {site known : CallSite} (found : engine.callSites.find? guest = some site)
    (alsoFound : engine.callSites.find? other = some known) (apart : guest ≠ other) :
    site.slot ≠ known.slot := by
  have distinct : (engine.callSites.entries.map fun entry => entry.2.slot).Nodup := by
    have nodup := sound.linking.nodup_slots
    unfold compiled at nodup
    rwa [List.map_map] at nodup
  intro same
  have entries := List.inj_on_of_nodup_map distinct (AddressMap.mem_of_find? found)
    (AddressMap.mem_of_find? alsoFound) same
  exact apart (congrArg Prod.fst entries)

/-- Completing the links of a sound engine logs no dropped waiter. -/
theorem Sound.undropped (sound : engine.Sound recent) (block : Block) :
    ∀ event ∈ (engine.ctx.completeLinks block).events,
      ∀ guest slot capacity, event ≠ .waiterDropped guest slot capacity := by
  have inside : (engine.ctx.links.waiters block.guest).filter
      (not ∘ engine.ctx.slots.holds) = [] := by
    rw [List.filter_eq_nil_iff]
    intro slot waits
    simp [sound.linking.holds_of_mem_waiters waits]
  have events := engine.ctx.events_completeLinks block
  simp only [inside, List.map_nil, List.nil_append] at events
  rw [events]
  rintro event logged guest slot capacity rfl
  split at logged
  · cases logged
  · cases List.mem_singleton.1 logged

theorem Sound.linksComplete (sound : engine.Sound recent) : engine.LinksComplete recent where
  allocated_eq := by
    rw [← sound.linking.length_sites]
    exact List.length_map _
  allocated_le := sound.linking.allocated_le
  slot_lt _ _ found := sound.linking.index_lt (mem_compiled_of_find? found)
  slots_ne _ _ _ _ found alsoFound apart := sound.slot_ne found alsoFound apart
  waiting _ site found unregistered := by
    have compiled := mem_compiled_of_find? found
    exact ⟨sound.linking.unresolved site compiled unregistered,
      sound.linking.filter_nodes_of_unregistered compiled unregistered⟩
  linked _ site found registered := by
    have compiled := mem_compiled_of_find? found
    obtain ⟨block, known⟩ := Option.ne_none_iff_exists'.1 registered
    exact ⟨fun _ => sound.linking.slot_ne_of_registered compiled registered,
      sound.linking.resolved site compiled block known⟩
  owned waiter waits := by
    obtain ⟨site, compiled, unregistered, rfl⟩ := sound.linking.mem_nodes.1 waits
    obtain ⟨guest, found⟩ := sound.find?_of_mem compiled
    exact ⟨guest, site, found, unregistered, rfl⟩
  pending_eq := by
    rw [sound.linking.pending_eq, List.countP_eq_length_filter]
    rfl
  undropped := sound.undropped

/-! ## Slots keep what is written -/

/-- Between two states of an engine whose code has not been flushed in the meantime: call sites stay
compiled, addresses stay registered, and a slot whose return block was registered, and which has
therefore been written, still has the same value. -/
structure Continues (before after : Engine κ) : Prop where
  sites : ∀ guest site, before.callSites.find? guest = some site →
    after.callSites.find? guest = some site
  registered : ∀ guest, before.registry.lookup guest ≠ none → after.registry.lookup guest ≠ none
  slots : ∀ guest site, before.callSites.find? guest = some site →
    before.registry.lookup site.ret ≠ none →
    after.ctx.slots.value site.slot = before.ctx.slots.value site.slot

theorem Continues.refl (engine : Engine κ) : engine.Continues engine :=
  ⟨fun _ _ => id, fun _ => id, fun _ _ _ _ => rfl⟩

theorem Continues.trans {first second third : Engine κ} (early : first.Continues second)
    (late : second.Continues third) : first.Continues third where
  sites guest site found := late.sites guest site (early.sites guest site found)
  registered guest known := late.registered guest (early.registered guest known)
  slots guest site found known :=
    (late.slots guest site (early.sites guest site found) (early.registered site.ret known)).trans
      (early.slots guest site found known)

/-- A context with the same slots goes on from the engine. -/
theorem continues_withContext {ctx : Context} (same : ctx.slots = engine.ctx.slots) :
    engine.Continues (engine.withContext ctx) := by
  refine ⟨fun _ _ => id, fun _ => id, ?_⟩
  intro guest site _ _
  exact congrArg (SlotArray.value · site.slot) same

theorem continues_pop (engine : Engine κ) (actual : GuestAddr) :
    engine.Continues (engine.withContext (engine.ctx.pop actual).state) :=
  continues_withContext (Context.slots_pop engine.ctx actual)

theorem continues_lookup (engine : Engine κ) (target : GuestAddr) :
    engine.Continues (engine.withContext (engine.ctx.lookupTarget target).state) := by
  rcases engine.ctx.lookupTarget_cases target with ⟨_, -, -, state⟩ | ⟨-, -, state⟩
  · rw [state]
    exact continues_withContext rfl
  · rw [state]
    exact continues_withContext rfl

theorem Sound.continues_register (sound : engine.Sound recent) (block : Block) :
    engine.Continues (engine.register block).state := by
  refine ⟨fun _ _ => id, ?_, ?_⟩
  · intro guest known unregistered
    have after := Registry.lookup_insert engine.registry block guest
    rw [show (engine.registry.insert block).lookup guest = none from unregistered] at after
    split at after
    · cases after
    · exact known after.symm
  · intro guest site found known
    rw [sound.slots_register]
    refine (sound.linking.value_register block (mem_compiled_of_find? found)).trans (if_neg ?_)
    rintro ⟨unregistered, returns⟩
    exact known (returns ▸ unregistered)

theorem Sound.continues_resolve (sound : engine.Sound recent) (compile : Compile κ)
    (guest : GuestAddr) : engine.Continues (Engine.resolve compile engine guest).state := by
  rcases resolve_cases compile engine guest with
    ⟨_, -, -, state⟩ | ⟨-, -, -, state⟩ | ⟨host, -, -, -, state⟩
  · rw [state]
    exact .refl engine
  · rw [state]
    exact ⟨fun _ _ => id, fun _ => id, fun _ _ _ _ => rfl⟩
  · rw [state]
    have asked := sound.withCompiler (compile engine.compiler guest).2
    have later := asked.continues_register ⟨guest, host⟩
    exact ⟨later.sites, later.registered, later.slots⟩

theorem continues_runCall (engine : Engine κ) (site : CallSite) :
    engine.Continues (engine.runCall site).state := by
  rw [(runCall_eq engine site).2, Context.state_push]
  exact continues_withContext rfl

/-- A new call site takes a slot that no other call site owns. -/
theorem Sound.continues_prepare (sound : engine.Sound recent) {site : GuestAddr}
    (new : engine.callSites.find? site = none) (ret : GuestAddr) (fresh : CallSite) :
    engine.Continues
      { engine.withContext (engine.ctx.prepare engine.registry ret).state with
        callSites := engine.callSites.insert site fresh } := by
  refine ⟨?_, fun _ => id, ?_⟩
  · intro guest known found
    refine (AddressMap.find?_insert _ _ _ _).trans ((if_neg ?_).trans found)
    rintro rfl
    cases new.symm.trans found
  · intro guest known found _
    change (engine.ctx.prepare engine.registry ret).state.slots.value known.slot = _
    rcases engine.ctx.prepare_cases engine.registry ret with
      ⟨-, -, state⟩ | ⟨room, _, block, -, -, state⟩ | ⟨-, -, -, state⟩
    · rw [state]
    · rw [state]
      refine (SlotArray.value_resolve _ _ _ _).trans (if_neg ?_)
      rintro ⟨same, -⟩
      exact sound.linking.slot_ne_nextSlot room (mem_compiled_of_find? found) same
    · rw [state]
      rfl

theorem Sound.continues_call (sound : engine.Sound recent) (site ret : GuestAddr) :
    engine.Continues (engine.call site ret).state := by
  rcases engine.call_cases site ret with
    ⟨known, -, called⟩ | ⟨fault, -, refused, -, state⟩ | ⟨fresh, new, -, -, state⟩
  · rw [called]
    exact continues_runCall engine known
  · rw [state]
    rcases engine.ctx.prepare_cases engine.registry ret with
      ⟨-, -, unchanged⟩ | ⟨-, _, _, -, value, -⟩ | ⟨-, -, value, -⟩
    · rw [unchanged]
      exact .refl engine
    · cases value.symm.trans refused
    · cases value.symm.trans refused
  · rw [state]
    exact (sound.continues_prepare new ret fresh).trans (continues_runCall _ fresh)

theorem Sound.continues_ret (sound : engine.Sound recent) (compile : Compile κ)
    (actual : GuestAddr) : engine.Continues (Engine.ret compile engine actual).state := by
  have popped := continues_pop engine actual
  rcases ret_cases compile engine actual with ⟨_, -, -, state⟩ | ⟨-, -, state⟩
  · rw [state]
    exact popped
  · rw [state]
    exact popped.trans ((sound.pop actual).continues_resolve compile actual)

theorem Sound.continues_jump (sound : engine.Sound recent) (compile : Compile κ)
    (target : GuestAddr) : engine.Continues (Engine.jump compile engine target).state := by
  have looked := continues_lookup engine target
  have slowly := looked.trans ((sound.lookup target).continues_resolve compile target)
  rcases jump_cases compile engine target with
    ⟨-, -, state⟩ | ⟨-, slow, rfl, ⟨_, -, -, state⟩ | ⟨_, -, -, state⟩⟩
  · rw [state]
    exact looked
  · rw [state]
    exact slowly
  · rw [state]
    exact slowly.trans (continues_withContext rfl)

/-- Every operation but a flush of the code leaves written slots alone. -/
theorem Sound.continues_step (sound : engine.Sound recent) (compile : Compile κ) {action : Action}
    (going : action ≠ .flushCode) : engine.Continues (Engine.step compile engine action).state := by
  cases action with
  | register block => exact sound.continues_register block
  | resolve guest => exact sound.continues_resolve compile guest
  | call site ret => exact sound.continues_call site ret
  | ret actual => exact sound.continues_ret compile actual
  | jump target => exact sound.continues_jump compile target
  | flushCode => exact absurd rfl going
  | flushStack => exact continues_withContext rfl

theorem Sound.continues_run (sound : engine.Sound recent) (compile : Compile κ)
    {actions : List Action} (going : Action.flushCode ∉ actions) :
    engine.Continues (Engine.run compile engine actions).state := by
  induction actions generalizing engine recent with
  | nil => exact .refl engine
  | cons action actions ih =>
    obtain ⟨first, rest⟩ := not_or.1 (mt List.mem_cons.2 going)
    exact (sound.continues_step compile (Ne.symm first)).trans (ih (sound.step action) rest)

/-! ## Engines just built -/

/-- However an engine is used after it was built, its links are complete, and what is written to a
slot stays there until the code is flushed. -/
theorem run_linksComplete {config : Config} {compiler : κ} {made : Outcome (Engine κ) Unit}
    (created : create config compiler = .ok made) (compile : Compile κ) (actions : List Action) :
    (run compile made.state actions).state.LinksComplete
        (recentOf compile made.state [] actions) ∧
      ∀ later, Action.flushCode ∉ later →
        (run compile made.state actions).state.Continues
          (run compile made.state (actions ++ later)).state := by
  have sound : (run compile made.state actions).state.Sound
      (recentOf compile made.state [] actions) := (sound_create created).run actions
  refine ⟨sound.linksComplete, fun later going => ?_⟩
  rw [state_run_append]
  exact sound.continues_run compile going

/-- A slot that waits, in an engine with one call site. -/
theorem run_linksComplete_waiting :
    create .smallest () = .ok ⟨(), smallest, [.contextCreated .smallest]⟩ ∧
      (run .identical smallest [.call ⟨1⟩ ⟨16⟩]).state.ctx.links.nodes = [⟨⟨16⟩, ⟨0⟩⟩] ∧
      (run .identical smallest [.call ⟨1⟩ ⟨16⟩]).state.LinksComplete [] ∧
      (run .identical smallest [.call ⟨1⟩ ⟨16⟩]).state.Continues
        (run .identical smallest [.call ⟨1⟩ ⟨16⟩, .ret ⟨16⟩, .register ⟨⟨16⟩, ⟨10⟩⟩]).state := by
  obtain ⟨complete, continues⟩ := run_linksComplete create_smallest .identical [.call ⟨1⟩ ⟨16⟩]
  refine ⟨create_smallest, rfl, complete, ?_⟩
  refine continues [.ret ⟨16⟩, .register ⟨⟨16⟩, ⟨10⟩⟩] ?_
  decide

end TransferCache.Engine
