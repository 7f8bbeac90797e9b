import TransferCache.Context.Protocol
import TransferCache.Proofs.Context.Linking
import TransferCache.Proofs.Shadow.Frames

/-!
# What each protocol does to a context

Each protocol of a context has one statement here that says everything it can do: how it answers
and the state it leaves, as the old state with the changed parts replaced. Later proofs start from
these and do not open the protocols again.
-/

namespace TransferCache

/-- The smallest configuration that is accepted. -/
def Config.smallest : Config where
  stackSize := 1
  slotCapacity := 1
  linkTableBits := 1
  indexBits := 1

namespace Context

variable {ctx : Context}

/-! ## Creation -/

/-- What creating a context of the smallest configuration yields. -/
def smallest : Outcome Context Unit := ⟨(), ofConfig .smallest, [.contextCreated .smallest]⟩

theorem create_smallest : create .smallest = .ok smallest := rfl

/-- A context is created, empty, exactly if its configuration is accepted and the number of places
in the storage of its stack is a word. -/
theorem create_eq_ok_iff {config : Config} {made : Outcome Context Unit} :
    create config = .ok made ↔
      config.validate = .ok () ∧ config.stackSize.toNat + 1 < UInt64.size ∧
        ⟨(), ofConfig config, [.contextCreated config]⟩ = made := by
  unfold create
  cases validated : config.validate with
  | error fault => exact iff_of_false nofun fun all => nomatch all.1
  | ok _ =>
    rw [and_iff_right rfl]
    cases built : ShadowStack.ofCapacity? config.stackSize.toNat config.overflow with
    | none =>
      have larger := ShadowStack.ofCapacity?_eq_none_iff.1 built
      exact iff_of_false nofun fun all => Nat.not_lt_of_le larger all.1
    | some shadow =>
      obtain ⟨stored, rfl⟩ := ShadowStack.ofCapacity?_eq_some_iff.1 built
      rw [and_iff_right stored]
      exact ⟨Except.ok.inj, congrArg Except.ok⟩

/-- A context is created empty, and its stack has room for a frame. -/
theorem of_create {config : Config} {made : Outcome Context Unit}
    (created : create config = .ok made) :
    made.state = ofConfig config ∧ (ofConfig config).shadow.WellFormed := by
  obtain ⟨validated, -, rfl⟩ := create_eq_ok_iff.1 created
  refine ⟨rfl, ShadowStack.wellFormed_ofCapacity ?_ _⟩
  have nonzero := ((Config.validate_eq_ok_iff config).1 validated).1
  refine Nat.pos_of_ne_zero fun zero => nonzero ?_
  exact UInt64.toNat_inj.1 zero

/-! ## Pushes and pops -/

/-- A push changes the stack and two counters. -/
theorem state_push (ctx : Context) (site : CallSite) :
    (ctx.push site).state =
      { ctx with
        shadow := (ctx.shadow.push site.frame).1
        stats :=
          { ctx.stats with
            shadowPushes := ctx.stats.shadowPushes + 1
            shadowOverflows :=
              ctx.stats.shadowOverflows + if (ctx.shadow.push site.frame).2 then 1 else 0 } } := by
  change (if (ctx.shadow.push site.frame).2 then _ else _ : Outcome Context Unit).state = _
  split <;> rfl

/-- The three outcomes of a pop: the newest frame does not expect the actual address, or it does and
its slot is unresolved, or it does and its slot holds host code. -/
theorem pop_cases (wf : ctx.shadow.WellFormed) (actual : GuestAddr) :
    (ctx.shadow.frames.head?.map Frame.expected ≠ some actual ∧
      (ctx.pop actual).value = .mismatch ∧
      (ctx.pop actual).state =
        { ctx with
          stats :=
            { ctx.stats with shadowMismatches := ctx.stats.shadowMismatches + 1 } }) ∨
    (∃ frame ∈ ctx.shadow.frames, ctx.shadow.frames.head? = some frame ∧
      frame.expected = actual ∧ ctx.slots.value frame.slot = .unresolved ∧
      (ctx.pop actual).value = .unresolved ∧
      (ctx.pop actual).state =
        { ctx with
          shadow := ctx.shadow.pop
          stats :=
            { ctx.stats with shadowUnresolved := ctx.stats.shadowUnresolved + 1 } }) ∨
    (∃ frame ∈ ctx.shadow.frames, ctx.shadow.frames.head? = some frame ∧
      frame.expected = actual ∧ ctx.slots.value frame.slot ≠ .unresolved ∧
      (ctx.pop actual).value = .hit (ctx.slots.value frame.slot) ∧
      (ctx.pop actual).state =
        { ctx with
          shadow := ctx.shadow.pop
          stats := { ctx.stats with shadowHits := ctx.stats.shadowHits + 1 } }) := by
  have top := wf.peek_eq
  have empty := wf.frames_eq_nil_iff
  unfold Context.pop
  cases frames : ctx.shadow.frames with
  | nil =>
    refine Or.inl ?_
    rw [if_pos (Or.inl (empty.1 frames))]
    exact ⟨by simp, rfl, rfl⟩
  | cons frame rest =>
    have peek : ctx.shadow.peek = frame := by
      rw [top, frames]
      rfl
    have busy : ¬ctx.shadow.isEmpty = true := by
      rw [← empty, frames]
      exact List.cons_ne_nil _ _
    by_cases matched : frame.expected = actual
    · have goes : ¬(ctx.shadow.isEmpty = true ∨ ctx.shadow.peek.expected ≠ actual) := by
        rw [peek]
        exact fun either => either.elim busy (· matched)
      rw [if_neg goes, peek]
      refine Or.inr ?_
      by_cases unresolved : ctx.slots.value frame.slot = .unresolved
      · refine Or.inl ⟨frame, List.mem_cons_self, rfl, matched, unresolved, ?_⟩
        simp only [HostAddr.isUnresolved_iff.2 unresolved, if_true, and_self]
      · refine Or.inr ⟨frame, List.mem_cons_self, rfl, matched, unresolved, ?_⟩
        have filled : ¬(ctx.slots.value frame.slot).isUnresolved = true :=
          mt HostAddr.isUnresolved_iff.1 unresolved
        simp only [filled, if_false, and_self, Bool.false_eq_true]
    · refine Or.inl ⟨by simpa using matched, ?_⟩
      rw [if_pos (Or.inr (by rwa [peek]))]
      exact ⟨rfl, rfl⟩

/-- A pop drops the newest frame exactly if that expects the actual address. -/
theorem shadow_pop (wf : ctx.shadow.WellFormed) (actual : GuestAddr) :
    (ctx.pop actual).state.shadow =
      if ctx.shadow.frames.head?.map Frame.expected = some actual then ctx.shadow.pop
      else ctx.shadow := by
  rcases pop_cases wf actual with
    ⟨missed, -, state⟩ | ⟨_, -, top, matched, -, -, state⟩ | ⟨_, -, top, matched, -, -, state⟩
  · rw [state, if_neg missed]
  · rw [state, top, Option.map_some, matched, if_pos rfl]
  · rw [state, top, Option.map_some, matched, if_pos rfl]

/-- A pop hits exactly if the newest frame expects the actual address and its slot is filled. -/
theorem pop_hit_iff (wf : ctx.shadow.WellFormed) (actual : GuestAddr) (host : HostAddr) :
    (ctx.pop actual).value = .hit host ↔
      host ≠ .unresolved ∧ ∃ frame, ctx.shadow.frames.head? = some frame ∧
        frame.expected = actual ∧ ctx.slots.value frame.slot = host := by
  rcases pop_cases wf actual with
    ⟨missed, value, -⟩ | ⟨frame, -, top, -, vacant, value, -⟩ |
      ⟨frame, -, top, matched, filled, value, -⟩
  · refine iff_of_false (fun hit => by cases value.symm.trans hit) ?_
    rintro ⟨-, frame, top, matched, -⟩
    rw [top, Option.map_some, matched] at missed
    exact missed rfl
  · refine iff_of_false (fun hit => by cases value.symm.trans hit) ?_
    rintro ⟨filled, other, same, -, held⟩
    cases top.symm.trans same
    exact filled (held.symm.trans vacant)
  · rw [value]
    constructor
    · intro hit
      cases hit
      exact ⟨filled, frame, top, matched, rfl⟩
    · rintro ⟨-, other, same, -, held⟩
      cases top.symm.trans same
      rw [held]

/-- A pop changes three counters and nothing else, unless it also drops the newest frame. -/
theorem state_pop (ctx : Context) (actual : GuestAddr) :
    ∃ shadow hits mismatches unresolved, (shadow = ctx.shadow ∨ shadow = ctx.shadow.pop) ∧
      (ctx.pop actual).state =
        { ctx with
          shadow
          stats :=
            { ctx.stats with
              shadowHits := hits
              shadowMismatches := mismatches
              shadowUnresolved := unresolved } } := by
  unfold pop
  dsimp only
  split
  · exact ⟨_, _, _, _, Or.inl rfl, rfl⟩
  · split
    · exact ⟨_, _, _, _, Or.inr rfl, rfl⟩
    · exact ⟨_, _, _, _, Or.inr rfl, rfl⟩

/-- A pop reads the slots only. -/
theorem slots_pop (ctx : Context) (actual : GuestAddr) :
    (ctx.pop actual).state.slots = ctx.slots := by
  obtain ⟨_, _, _, _, -, state⟩ := ctx.state_pop actual
  rw [state]

/-! ## Links -/

/-- A call site gets the next slot, filled at once or waiting, or is refused. -/
theorem prepare_cases (ctx : Context) (registry : Registry) (ret : GuestAddr) :
    (ctx.slots.capacity ≤ ctx.slots.allocated ∧
      (ctx.prepare registry ret).value = .error ⟨ctx.slots.capacity⟩ ∧
      (ctx.prepare registry ret).state = ctx) ∨
    (ctx.slots.allocated < ctx.slots.capacity ∧ ∃ linked block,
      registry.lookup ret = some block ∧
      (ctx.prepare registry ret).value = .ok ⟨ret, ctx.slots.nextSlot, linked⟩ ∧
      (ctx.prepare registry ret).state =
        { ctx with
          slots := ctx.slots.taken.resolve ctx.slots.nextSlot block.host
          stats :=
            { ctx.stats with
              callSites := ctx.stats.callSites + 1
              linksImmediate := ctx.stats.linksImmediate + 1 } }) ∨
    (ctx.slots.allocated < ctx.slots.capacity ∧ registry.lookup ret = none ∧
      (ctx.prepare registry ret).value = .ok ⟨ret, ctx.slots.nextSlot, false⟩ ∧
      (ctx.prepare registry ret).state =
        { ctx with
          slots := ctx.slots.taken
          links := ctx.links.defer ret ctx.slots.nextSlot
          stats :=
            { ctx.stats with
              callSites := ctx.stats.callSites + 1
              linksDeferred := ctx.stats.linksDeferred + 1 } }) := by
  unfold prepare
  rcases Nat.lt_or_ge ctx.slots.allocated ctx.slots.capacity with room | full
  · refine Or.inr ?_
    rw [SlotArray.alloc_of_lt room]
    cases found : registry.lookup ret with
    | some block => exact Or.inl ⟨room, _, block, rfl, rfl, rfl⟩
    | none => exact Or.inr ⟨room, rfl, rfl, rfl⟩
  · refine Or.inl ⟨full, ?_⟩
    rw [SlotArray.alloc_of_le full]
    exact ⟨rfl, rfl⟩

/-- Compiling a call site leaves the stack alone. -/
theorem shadow_prepare (ctx : Context) (registry : Registry) (ret : GuestAddr) :
    (ctx.prepare registry ret).state.shadow = ctx.shadow := by
  rcases ctx.prepare_cases registry ret with
    ⟨-, -, state⟩ | ⟨-, _, _, -, -, state⟩ | ⟨-, -, -, state⟩
  · rw [state]
  · rw [state]
  · rw [state]

/-- A site that is prepared has the return address it is prepared for. -/
theorem ret_of_prepare {registry : Registry} {ret : GuestAddr} {fresh : CallSite}
    (prepared : (ctx.prepare registry ret).value = .ok fresh) : fresh.ret = ret := by
  rcases ctx.prepare_cases registry ret with
    ⟨-, refused, -⟩ | ⟨-, _, _, -, linked, -⟩ | ⟨-, -, deferred, -⟩
  · cases refused.symm.trans prepared
  · cases linked.symm.trans prepared
    rfl
  · cases deferred.symm.trans prepared
    rfl

/-- Completing the links of an address fills every waiting slot that is a cell of the array. -/
theorem completeLinks_eq (ctx : Context) (block : Block) :
    let filled := (ctx.links.waiters block.guest).filter ctx.slots.holds
    (ctx.completeLinks block).value = filled.length ∧
    (ctx.completeLinks block).state =
      { ctx with
        slots := ctx.slots.resolveAll filled block.host
        links := (ctx.links.complete block.guest).2
        stats :=
          { ctx.stats with linksCompleted := ctx.stats.linksCompleted + filled.length } } := by
  have released : (ctx.links.complete block.guest).1 = ctx.links.waiters block.guest := rfl
  unfold completeLinks
  simp only [released, List.partition_eq_filter_filter, and_self]

/-- Each waiter that is dropped is logged, and so is a completion of at least one. -/
theorem events_completeLinks (ctx : Context) (block : Block) :
    let filled := (ctx.links.waiters block.guest).filter ctx.slots.holds
    let dropped := (ctx.links.waiters block.guest).filter (not ∘ ctx.slots.holds)
    (ctx.completeLinks block).events =
      dropped.map (Event.waiterDropped block.guest · ctx.slots.capacity) ++
        if filled.length = 0 then [] else [.linksCompleted block filled.length] := by
  have released : (ctx.links.complete block.guest).1 = ctx.links.waiters block.guest := rfl
  unfold completeLinks
  simp only [released, List.partition_eq_filter_filter]

/-! ## Jump targets -/

/-- A lookup finds the cached host code, or leaves an update pending. -/
theorem lookupTarget_cases (ctx : Context) (target : GuestAddr) :
    (∃ host, ctx.targets.lookup target = some host ∧
      (ctx.lookupTarget target).value = host ∧
      (ctx.lookupTarget target).state =
        { ctx with stats := { ctx.stats with targetHits := ctx.stats.targetHits + 1 } }) ∨
    (ctx.targets.lookup target = none ∧
      (ctx.lookupTarget target).value = ctx.stub ∧
      (ctx.lookupTarget target).state =
        { ctx with
          updatePending := true
          stats := { ctx.stats with targetMisses := ctx.stats.targetMisses + 1 } }) := by
  unfold lookupTarget
  cases found : ctx.targets.lookup target with
  | some host => exact Or.inl ⟨host, rfl, rfl, rfl⟩
  | none => exact Or.inr ⟨rfl, rfl, rfl⟩

end Context

end TransferCache
