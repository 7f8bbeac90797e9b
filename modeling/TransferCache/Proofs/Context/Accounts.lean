import Mathlib.Algebra.GroupWithZero.Nat
import TransferCache.Proofs.Context.Steps

/-!
# What a log tells of the counters

Events are logged and counters are bumped side by side, in many branches. `Context.Accounts` says
that they agree: what was counted between two states of a context is what the events in between
tell. Some events are always logged; those of pops and of the cache of jump targets only if
transfers are traced, which is a switch that no protocol moves. An error is logged exactly for a
call site that is refused a slot.

The relation is reflexive and additive, and every protocol has one lemma here that says it accounts
for itself.
-/

namespace TransferCache

/-! ## Reading a log -/

/-- The number of events of a level that carry a message. -/
def countOf (level : Level) (message : String) (events : List Event) : Nat :=
  events.countP fun event => event.level = level ∧ event.message = message

/-- The number of slots that an event reports as filled. -/
def Event.linked : Event → Nat
  | .linksCompleted _ linked => linked
  | _ => 0

def linkedIn (events : List Event) : Nat := (events.map Event.linked).sum

/-- The errors in a log, in order. -/
def errorsIn (events : List Event) : List Event := events.filter (·.level = .error)

/-- A kind of event, and the counter that counts it. -/
structure Kind where
  level : Level
  message : String
  counter : Stats → Nat

/-- The kinds of events that are logged whenever they are counted. -/
def alwaysLogged : List Kind :=
  [⟨.warn, "shadow stack overflow; older return predictions dropped", Stats.shadowOverflows⟩,
    ⟨.debug, "return block not compiled; link deferred", Stats.linksDeferred⟩,
    ⟨.debug, "shadow stack flushed", Stats.shadowFlushes⟩]

/-- The kinds of events that are logged only if transfers are traced. -/
def loggedIfTraced : List Kind :=
  [⟨.trace, "shadow pop hit", Stats.shadowHits⟩,
    ⟨.trace, "shadow pop mismatch", Stats.shadowMismatches⟩,
    ⟨.trace, "shadow pop hit unresolved slot", Stats.shadowUnresolved⟩,
    ⟨.trace, "ibtc hit", Stats.targetHits⟩,
    ⟨.trace, "ibtc miss", Stats.targetMisses⟩,
    ⟨.trace, "ibtc entry replaced", Stats.targetEvictions⟩]

/-- The counter has grown by the number of events. -/
def Kind.Counts (kind : Kind) (before : Stats) (events : List Event) (after : Stats) : Prop :=
  kind.counter after = kind.counter before + countOf kind.level kind.message events

theorem countOf_append (level : Level) (message : String) (events more : List Event) :
    countOf level message (events ++ more) =
      countOf level message events + countOf level message more :=
  List.countP_append

theorem linkedIn_append (events more : List Event) :
    linkedIn (events ++ more) = linkedIn events + linkedIn more := by
  unfold linkedIn
  rw [List.map_append, List.sum_append]

theorem errorsIn_append (events more : List Event) :
    errorsIn (events ++ more) = errorsIn events ++ errorsIn more :=
  List.filter_append events more

theorem Kind.Counts.trans {kind : Kind} {before middle after : Stats} {events more : List Event}
    (early : kind.Counts before events middle) (late : kind.Counts middle more after) :
    kind.Counts before (events ++ more) after := by
  unfold Counts at early late ⊢
  rw [late, early, countOf_append, Nat.add_assoc]

theorem Kind.Counts.of_zero {kind : Kind} {before after : Stats} {events : List Event}
    (counts : kind.Counts before events after) (zero : kind.counter before = 0) :
    countOf kind.level kind.message events = kind.counter after := by
  unfold Counts at counts
  rw [counts, zero, Nat.zero_add]

/-- An event of another level is not of the kind. -/
theorem Kind.Counts.of_level_ne {kind : Kind} {before after : Stats} {event : Event}
    (same : kind.counter after = kind.counter before) (other : event.level ≠ kind.level) :
    kind.Counts before [event] after := by
  unfold Counts countOf
  rw [same]
  simp [other]

theorem level_ne_trace_of_alwaysLogged : ∀ kind ∈ alwaysLogged, kind.level ≠ .trace := by
  simp [alwaysLogged]

theorem level_eq_trace_of_loggedIfTraced : ∀ kind ∈ loggedIfTraced, kind.level = .trace := by
  simp [loggedIfTraced]

namespace Context

/-- The events tell what was counted from one state of a context to another, and the errors among
them are the given refusals. -/
structure Accounts (before : Context) (events : List Event) (refusals : List SlotsExhausted)
    (after : Context) : Prop where
  always : ∀ kind ∈ alwaysLogged, kind.Counts before.stats events after.stats
  completed : after.stats.linksCompleted = before.stats.linksCompleted + linkedIn events
  errors : errorsIn events = refusals.map fun refusal => .slotsExhausted refusal.capacity
  switch : after.traceTransfers = before.traceTransfers
  traced : before.traceTransfers = true →
    ∀ kind ∈ loggedIfTraced, kind.Counts before.stats events after.stats
  untraced : before.traceTransfers = false → ∀ event ∈ events, event.level ≠ .trace

namespace Accounts

variable {before middle after : Context} {events more : List Event}
  {refusals moreRefusals : List SlotsExhausted}

/-- Nothing is logged, and nothing is counted that a log tells. -/
theorem of_silent (switch : after.traceTransfers = before.traceTransfers)
    (always : ∀ kind ∈ alwaysLogged, kind.counter after.stats = kind.counter before.stats)
    (completed : after.stats.linksCompleted = before.stats.linksCompleted)
    (traced : ∀ kind ∈ loggedIfTraced, kind.counter after.stats = kind.counter before.stats) :
    before.Accounts [] [] after where
  always := always
  completed := completed
  errors := rfl
  switch := switch
  traced _ := traced
  untraced _ _ member := nomatch member

theorem of_stats_eq (switch : after.traceTransfers = before.traceTransfers)
    (stats : after.stats = before.stats) : before.Accounts [] [] after :=
  .of_silent switch (fun kind _ => congrArg kind.counter stats)
    (congrArg Stats.linksCompleted stats) (fun kind _ => congrArg kind.counter stats)

theorem refl (ctx : Context) : ctx.Accounts [] [] ctx := .of_stats_eq rfl rfl

theorem trans (early : before.Accounts events refusals middle)
    (late : middle.Accounts more moreRefusals after) :
    before.Accounts (events ++ more) (refusals ++ moreRefusals) after where
  always kind member := (early.always kind member).trans (late.always kind member)
  completed := by rw [late.completed, early.completed, linkedIn_append, Nat.add_assoc]
  errors := by rw [errorsIn_append, early.errors, late.errors, List.map_append]
  switch := late.switch.trans early.switch
  traced on kind member :=
    (early.traced on kind member).trans (late.traced (early.switch.trans on) kind member)
  untraced off event member :=
    (List.mem_append.1 member).elim (early.untraced off event)
      (late.untraced (early.switch.trans off) event)

/-- One event is logged, whether or not transfers are traced. -/
theorem of_logged {event : Event} (untraced : event.level ≠ .trace) (fine : event.level ≠ .error)
    (switch : after.traceTransfers = before.traceTransfers)
    (always : ∀ kind ∈ alwaysLogged, kind.Counts before.stats [event] after.stats)
    (completed : after.stats.linksCompleted = before.stats.linksCompleted + event.linked)
    (traced : ∀ kind ∈ loggedIfTraced, kind.counter after.stats = kind.counter before.stats) :
    before.Accounts [event] [] after where
  always := always
  completed := by simpa [linkedIn] using completed
  errors := by simp [errorsIn, fine]
  switch := switch
  traced _ kind member := by
    refine .of_level_ne (traced kind member) ?_
    rwa [level_eq_trace_of_loggedIfTraced kind member]
  untraced _ other member := by rwa [List.mem_singleton.1 member]

/-- One event is logged if transfers are traced. -/
theorem of_traced {event : Event} (trace : event.level = .trace)
    (switch : after.traceTransfers = before.traceTransfers)
    (always : ∀ kind ∈ alwaysLogged, kind.counter after.stats = kind.counter before.stats)
    (completed : after.stats.linksCompleted = before.stats.linksCompleted)
    (traced : ∀ kind ∈ loggedIfTraced, kind.Counts before.stats [event] after.stats) :
    before.Accounts (before.traced event) [] after := by
  have plain : event.linked = 0 := by
    cases event with
    | linksCompleted => cases trace
    | _ => rfl
  unfold Context.traced
  cases on : before.traceTransfers with
  | false =>
    refine ⟨always, completed, rfl, switch, fun off => ?_, fun _ _ member => nomatch member⟩
    cases on.symm.trans off
  | true =>
    refine ⟨fun kind member => ?_, ?_, ?_, switch, fun _ => traced, fun off => ?_⟩
    · refine .of_level_ne (always kind member) ?_
      rw [trace]
      exact (level_ne_trace_of_alwaysLogged kind member).symm
    · simp [completed, linkedIn, plain]
    · simp [errorsIn, trace]
    · cases on.symm.trans off

end Accounts

/-! ## The protocols -/

/-- The refusal that a result is, if it is one. -/
def refusals {α : Type} : Except SlotsExhausted α → List SlotsExhausted
  | .error refusal => [refusal]
  | .ok _ => []

theorem accounts_refusal (ctx : Context) (refusal : SlotsExhausted) :
    ctx.Accounts [.slotsExhausted refusal.capacity] [refusal] ctx where
  always kind member := by
    revert kind
    simp [alwaysLogged, Kind.Counts, countOf, Event.level]
  completed := rfl
  errors := rfl
  switch := rfl
  traced _ kind member := by
    refine .of_level_ne rfl ?_
    rw [level_eq_trace_of_loggedIfTraced kind member]
    exact Level.noConfusion
  untraced _ := by simp [Event.level]

theorem accounts_prepare (ctx : Context) (registry : Registry) (ret : GuestAddr) :
    ctx.Accounts (ctx.prepare registry ret).events (refusals (ctx.prepare registry ret).value)
      (ctx.prepare registry ret).state := by
  unfold prepare
  cases ctx.slots.alloc with
  | error refusal => exact ctx.accounts_refusal refusal
  | ok handed =>
    cases registry.lookup ret with
    | some block => exact .of_silent rfl (by simp [alwaysLogged]) rfl (by simp [loggedIfTraced])
    | none =>
      refine .of_logged (by simp [Event.level]) (by simp [Event.level]) rfl ?_ rfl ?_
      · simp [alwaysLogged, Kind.Counts, countOf, Event.level, Event.message]
      · simp [loggedIfTraced]

theorem accounts_noteOverflow (ctx : Context) :
    ctx.Accounts ctx.noteOverflow.events [] ctx.noteOverflow.state := by
  refine .of_logged (by simp [Event.level]) (by simp [Event.level]) rfl ?_ rfl ?_
  · simp [alwaysLogged, Kind.Counts, countOf, noteOverflow, Event.level, Event.message]
  · simp [loggedIfTraced, noteOverflow]

theorem accounts_push (ctx : Context) (site : CallSite) :
    ctx.Accounts (ctx.push site).events [] (ctx.push site).state := by
  unfold push
  dsimp only
  generalize ctx.shadow.push ⟨site.ret, site.slot⟩ = pushed
  have counted : ctx.Accounts [] []
      { ctx with
        shadow := pushed.1
        stats := { ctx.stats with shadowPushes := ctx.stats.shadowPushes + 1 } } :=
    .of_silent rfl (by simp [alwaysLogged]) rfl (by simp [loggedIfTraced])
  split
  · exact counted.trans (accounts_noteOverflow _)
  · exact counted

theorem accounts_pop (ctx : Context) (actual : GuestAddr) :
    ctx.Accounts (ctx.pop actual).events [] (ctx.pop actual).state := by
  unfold pop
  dsimp only
  split
  · refine .of_traced rfl rfl (by simp [alwaysLogged]) rfl ?_
    simp [loggedIfTraced, Kind.Counts, countOf, Event.level, Event.message]
  · split
    · refine .of_traced rfl rfl (by simp [alwaysLogged]) rfl ?_
      simp [loggedIfTraced, Kind.Counts, countOf, Event.level, Event.message]
    · refine .of_traced rfl rfl (by simp [alwaysLogged]) rfl ?_
      simp [loggedIfTraced, Kind.Counts, countOf, Event.level, Event.message]

theorem accounts_flushStack (ctx : Context) :
    ctx.Accounts ctx.flushStack.events [] ctx.flushStack.state := by
  refine .of_logged (by simp [Event.level]) (by simp [Event.level]) rfl ?_ rfl ?_
  · simp [alwaysLogged, Kind.Counts, countOf, flushStack, Event.level, Event.message]
  · simp [loggedIfTraced, flushStack]

/-- An event that no counter counts. -/
theorem accounts_uncounted (ctx : Context) {event : Event} (untraced : event.level ≠ .trace)
    (fine : event.level ≠ .error) (plain : event.linked = 0)
    (other : ∀ kind ∈ alwaysLogged, event.message ≠ kind.message) :
    ctx.Accounts [event] [] ctx := by
  refine .of_logged untraced fine rfl (fun kind member => ?_) (by rw [plain]; rfl) fun _ _ => rfl
  unfold Kind.Counts countOf
  simp [other kind member]

/-- Waiters that are dropped are not counted. -/
theorem accounts_waitersDropped (ctx : Context) (guest : GuestAddr) (capacity : Nat)
    (dropped : List SlotRef) :
    ctx.Accounts (dropped.map (Event.waiterDropped guest · capacity)) [] ctx := by
  induction dropped with
  | nil => exact .refl ctx
  | cons slot dropped ih =>
    have first : ctx.Accounts [.waiterDropped guest slot capacity] [] ctx :=
      ctx.accounts_uncounted (by simp [Event.level]) (by simp [Event.level]) rfl
        (by simp [alwaysLogged, Event.message])
    exact first.trans ih

theorem accounts_completeLinks (ctx : Context) (block : Block) :
    ctx.Accounts (ctx.completeLinks block).events [] (ctx.completeLinks block).state := by
  unfold completeLinks
  dsimp only
  have dropped := ctx.accounts_waitersDropped block.guest ctx.slots.capacity
  refine (dropped _).trans ?_
  split
  · next none =>
    refine .of_silent rfl (by simp [alwaysLogged]) ?_ (by simp [loggedIfTraced])
    rw [none]
    rfl
  · refine .of_logged (by simp [Event.level]) (by simp [Event.level]) rfl ?_ rfl ?_
    · simp [alwaysLogged, Kind.Counts, countOf, Event.level, Event.message]
    · simp [loggedIfTraced]

theorem accounts_lookupTarget (ctx : Context) (target : GuestAddr) :
    ctx.Accounts (ctx.lookupTarget target).events [] (ctx.lookupTarget target).state := by
  unfold lookupTarget
  cases ctx.targets.lookup target with
  | some host =>
    refine .of_traced rfl rfl (by simp [alwaysLogged]) rfl ?_
    simp [loggedIfTraced, Kind.Counts, countOf, Event.level, Event.message]
  | none =>
    refine .of_traced rfl rfl (by simp [alwaysLogged]) rfl ?_
    simp [loggedIfTraced, Kind.Counts, countOf, Event.level, Event.message]

theorem accounts_updateTarget (ctx : Context) (block : Block) :
    ctx.Accounts (ctx.updateTarget block).events [] (ctx.updateTarget block).state := by
  unfold updateTarget
  cases ctx.targets.displacedBy block with
  | some evicted =>
    refine .of_traced rfl rfl (by simp [alwaysLogged]) rfl ?_
    simp [loggedIfTraced, Kind.Counts, countOf, Event.level, Event.message]
  | none => exact .of_silent rfl (by simp [alwaysLogged]) rfl (by simp [loggedIfTraced])

theorem accounts_reset (ctx : Context) :
    ctx.Accounts ctx.reset.events [] ctx.reset.state := by
  have logged : ctx.Accounts [.contextReset] [] ctx :=
    ctx.accounts_uncounted (by simp [Event.level]) (by simp [Event.level]) rfl
      (by simp [alwaysLogged, Event.message])
  exact logged.trans (.of_stats_eq rfl rfl)

end Context

end TransferCache
