import TransferCache.Engine.Action
import TransferCache.Proofs.Code.Reporting
import TransferCache.Proofs.Engine.Sound

/-!
# The log and the counters tell the same story

An engine and its context may be used in any order: by operations of the engine, by protocols of the
context, and by compiled code. `Engine.Accounts` says that an outcome logs what it counts; it is
kept by putting outcomes together, so that an operation accounts for itself because its protocols do
(`accounts_step`, `accounts_perform`). Likewise an operation does the same with and without tracing
because its protocols do (`agrees_step`, `agrees_perform`).

* `performAll_reports`: what the whole log of an engine has to say, from its creation on.
-/

namespace TransferCache

open Code (Op Machine Fault Exit)

namespace Engine

variable {κ α β : Type} {engine : Engine κ} {outcome : Outcome (Engine κ) α}
  {early late : List SlotsExhausted}

/-! ## Accounts of outcomes -/

/-- An outcome logs what it counts, and its errors are the given refusals. -/
def Accounts (engine : Engine κ) (refusals : List SlotsExhausted)
    (outcome : Outcome (Engine κ) α) : Prop :=
  engine.ctx.Accounts outcome.events refusals outcome.state.ctx

namespace Accounts

theorem map (accounts : engine.Accounts early outcome) (f : α → β) :
    engine.Accounts early (outcome.map f) := accounts

theorem andThen (accounts : engine.Accounts early outcome)
    {next : α → Engine κ → Outcome (Engine κ) β}
    (later : outcome.state.Accounts late (next outcome.value outcome.state)) :
    engine.Accounts (early ++ late) (outcome.andThen next) := accounts.trans later

/-- Nothing happens to the context, and nothing is logged. -/
theorem pure (value : α) (engine : Engine κ) : engine.Accounts [] ⟨value, engine, []⟩ :=
  .refl engine.ctx

end Accounts

theorem accounts_register (engine : Engine κ) (block : Block) :
    engine.Accounts [] (engine.register block) := by
  have completed := engine.ctx.accounts_completeLinks block
  unfold register Accounts
  dsimp only
  cases engine.registry.lookup block.guest with
  | none => exact completed
  | some old =>
    have logged : engine.ctx.Accounts [.blockReplaced block.guest old.host block.host] []
        engine.ctx :=
      engine.ctx.accounts_uncounted (by simp [Event.level]) (by simp [Event.level]) rfl
        (by simp [alwaysLogged, Event.message])
    exact logged.trans completed

theorem accounts_resolve (compile : Compile κ) (engine : Engine κ) (guest : GuestAddr) :
    engine.Accounts [] (resolve compile engine guest) := by
  unfold resolve
  cases engine.registry.lookup guest with
  | some block => exact .pure _ engine
  | none =>
    rcases compile engine.compiler guest with ⟨_ | host, compiler⟩
    · exact Context.Accounts.refl engine.ctx
    · exact accounts_register { engine with compiler } ⟨guest, host⟩

theorem accounts_runCall (engine : Engine κ) (site : CallSite) :
    engine.Accounts [] (engine.runCall site) := engine.ctx.accounts_push site

/-- A call logs an error exactly if it is refused. -/
theorem accounts_call (engine : Engine κ) (site ret : GuestAddr) :
    engine.Accounts (Context.refusals (engine.call site ret).value) (engine.call site ret) := by
  unfold call
  cases engine.callSites.find? site with
  | some known => exact accounts_runCall engine known
  | none =>
    have accounts := engine.ctx.accounts_prepare engine.registry ret
    generalize engine.ctx.prepare engine.registry ret = prepared at accounts
    obtain ⟨value, state, events⟩ := prepared
    cases value with
    | error refusal =>
      have prepared : engine.Accounts [refusal] (.within engine.withContext
          (⟨.error refusal, state, events⟩ : Outcome Context (Except _ CallSite))) := accounts
      exact prepared.andThen (.pure _ _)
    | ok fresh =>
      have prepared : engine.Accounts [] (.within engine.withContext
          (⟨.ok fresh, state, events⟩ : Outcome Context (Except SlotsExhausted _))) := accounts
      exact prepared.andThen (accounts_runCall _ fresh)

theorem accounts_ret (compile : Compile κ) (engine : Engine κ) (actual : GuestAddr) :
    engine.Accounts [] (ret compile engine actual) := by
  unfold ret
  have popped : engine.Accounts [] ((engine.ctx.pop actual).within engine.withContext) :=
    engine.ctx.accounts_pop actual
  refine popped.andThen ?_
  split
  · exact .pure _ _
  · exact (accounts_resolve compile _ actual).map _

theorem accounts_jump (compile : Compile κ) (engine : Engine κ) (target : GuestAddr) :
    engine.Accounts [] (jump compile engine target) := by
  unfold jump
  have looked :
      engine.Accounts [] ((engine.ctx.lookupTarget target).within engine.withContext) :=
    engine.ctx.accounts_lookupTarget target
  refine looked.andThen ?_
  split
  · refine (accounts_resolve compile _ target).andThen ?_
    split
    · exact .pure _ _
    · exact Context.accounts_updateTarget _ _
  · exact .pure _ _

/-- The refusal of a call site that an operation answers, if it is one. -/
def answerRefusals : Answer → List SlotsExhausted
  | .called result => Context.refusals result
  | .linked _ | .resolved _ | .transferred _ | .done => []

theorem accounts_step (compile : Compile κ) (engine : Engine κ) (action : Action) :
    engine.Accounts (answerRefusals (step compile engine action).value)
      (step compile engine action) := by
  cases action with
  | register block => exact accounts_register engine block
  | resolve guest => exact accounts_resolve compile engine guest
  | call site ret => exact accounts_call engine site ret
  | ret actual => exact accounts_ret compile engine actual
  | jump target => exact accounts_jump compile engine target
  | flushCode => exact engine.ctx.accounts_reset
  | flushStack => exact engine.ctx.accounts_flushStack

/-! ## Operations with and without tracing -/

/-- The engine with the switch for tracing in the given position. -/
def retraced (traces : Bool) (engine : Engine κ) : Engine κ :=
  engine.withContext (engine.ctx.retraced traces)

variable (traces : Bool)

theorem agrees_within {performed viewed : Outcome Context α}
    (agrees : performed.Agrees (Context.retraced traces) viewed) (engine : Engine κ) :
    (performed.within engine.withContext).Agrees (retraced traces)
      (viewed.within (engine.retraced traces).withContext) :=
  ⟨agrees.value_eq, congrArg engine.withContext agrees.state_eq⟩

theorem agrees_register (engine : Engine κ) (block : Block) :
    (engine.register block).Agrees (retraced traces) ((engine.retraced traces).register block) :=
  ⟨rfl, rfl⟩

theorem agrees_resolve (compile : Compile κ) (engine : Engine κ) (guest : GuestAddr) :
    (resolve compile engine guest).Agrees (retraced traces)
      (resolve compile (engine.retraced traces) guest) := by
  unfold resolve
  rw [show (engine.retraced traces).registry = engine.registry from rfl,
    show (engine.retraced traces).compiler = engine.compiler from rfl]
  cases engine.registry.lookup guest with
  | some block => exact ⟨rfl, rfl⟩
  | none => rcases compile engine.compiler guest with ⟨_ | host, compiler⟩ <;> exact ⟨rfl, rfl⟩

theorem agrees_runCall (engine : Engine κ) (site : CallSite) :
    (engine.runCall site).Agrees (retraced traces) ((engine.retraced traces).runCall site) :=
  (agrees_within traces (engine.ctx.agrees_push traces site) engine).map _

theorem agrees_call (engine : Engine κ) (site ret : GuestAddr) :
    (engine.call site ret).Agrees (retraced traces) ((engine.retraced traces).call site ret) := by
  unfold call
  rw [show (engine.retraced traces).callSites = engine.callSites from rfl]
  cases engine.callSites.find? site with
  | some known => exact agrees_runCall traces engine known
  | none =>
    have prepared := engine.ctx.agrees_prepare traces engine.registry ret
    refine (agrees_within traces prepared engine).andThen fun value state => ?_
    cases value with
    | error refusal => exact ⟨rfl, rfl⟩
    | ok fresh =>
      exact agrees_runCall traces
        { state with callSites := state.callSites.insert site fresh } fresh

theorem agrees_ret (compile : Compile κ) (engine : Engine κ) (actual : GuestAddr) :
    (ret compile engine actual).Agrees (retraced traces)
      (ret compile (engine.retraced traces) actual) := by
  unfold ret
  have popped := engine.ctx.agrees_pop traces actual
  refine (agrees_within traces popped engine).andThen fun prediction state => ?_
  cases prediction.target? with
  | some host => exact ⟨rfl, rfl⟩
  | none => exact (agrees_resolve traces compile state actual).map _

theorem agrees_jump (compile : Compile κ) (engine : Engine κ) (target : GuestAddr) :
    (jump compile engine target).Agrees (retraced traces)
      (jump compile (engine.retraced traces) target) := by
  unfold jump
  have looked := engine.ctx.agrees_lookupTarget traces target
  refine (agrees_within traces looked engine).andThen fun host state => ?_
  refine .ite ?_ ⟨rfl, rfl⟩
  refine (agrees_resolve traces compile state target).andThen fun found later => ?_
  cases found with
  | error fault => exact ⟨rfl, rfl⟩
  | ok block => exact ⟨rfl, rfl⟩

theorem agrees_step (compile : Compile κ) (engine : Engine κ) (action : Action) :
    (step compile engine action).Agrees (retraced traces)
      (step compile (engine.retraced traces) action) := by
  cases action with
  | register block => exact (agrees_register traces engine block).map _
  | resolve guest => exact (agrees_resolve traces compile engine guest).map _
  | call site ret => exact (agrees_call traces engine site ret).map _
  | ret actual => exact (agrees_ret traces compile engine actual).map _
  | jump target => exact (agrees_jump traces compile engine target).map _
  | flushCode => exact ⟨rfl, rfl⟩
  | flushStack => exact ⟨rfl, rfl⟩

end Engine

/-! ## Engines and contexts in use -/

/-- A use of an engine, or of its context apart from it. -/
inductive Activity where
  /-- An operation of the engine. -/
  | act (action : Action)
  | prepare (registry : Registry) (ret : GuestAddr)
  | push (site : CallSite)
  | pop (actual : GuestAddr)
  | flushStack
  | completeLinks (block : Block)
  | lookupTarget (target : GuestAddr)
  | updateTarget (block : Block)
  | reset
  /-- Run a list of operations on the context, with a file of registers. -/
  | execute (ops : Array Op) (temps : Numbered UInt64)

/-- What came of it. -/
inductive Finding where
  | answered (answer : Answer)
  | prepared (result : Except SlotsExhausted CallSite)
  | predicted (prediction : Prediction)
  | linked (count : Nat)
  | found (host : HostAddr)
  /-- How the run ended, and what is in the registers then. -/
  | executed (exit : Except Fault Exit) (temps : Numbered UInt64)
  | done

/-- The refusal of a call site, if that is what came of it. -/
def Finding.refusals : Finding → List SlotsExhausted
  | .answered answer => Engine.answerRefusals answer
  | .prepared result => Context.refusals result
  | .predicted _ | .linked _ | .found _ | .executed _ _ | .done => []

namespace Engine

variable {κ : Type}

/-- Runs a list of operations on the context of an engine. -/
def execute (engine : Engine κ) (ops : Array Op) (temps : Numbered UInt64) :
    Outcome (Engine κ) Finding :=
  let (exit, ended) := Machine.run ⟨engine.ctx, temps, #[]⟩ ops
  ⟨.executed exit ended.temps, engine.withContext ended.ctx, ended.log.toList⟩

def perform (compile : Compile κ) (engine : Engine κ) : Activity → Outcome (Engine κ) Finding
  | .act action => (step compile engine action).map .answered
  | .prepare registry ret =>
    ((engine.ctx.prepare registry ret).within engine.withContext).map .prepared
  | .push site => ((engine.ctx.push site).within engine.withContext).map fun _ => .done
  | .pop actual => ((engine.ctx.pop actual).within engine.withContext).map .predicted
  | .flushStack => (engine.ctx.flushStack.within engine.withContext).map fun _ => .done
  | .completeLinks block =>
    ((engine.ctx.completeLinks block).within engine.withContext).map .linked
  | .lookupTarget target =>
    ((engine.ctx.lookupTarget target).within engine.withContext).map .found
  | .updateTarget block =>
    ((engine.ctx.updateTarget block).within engine.withContext).map fun _ => .done
  | .reset => (engine.ctx.reset.within engine.withContext).map fun _ => .done
  | .execute ops temps => engine.execute ops temps

def performAll (compile : Compile κ) (engine : Engine κ) :
    List Activity → Outcome (Engine κ) (List Finding)
  | [] => ⟨[], engine, []⟩
  | activity :: activities =>
    (perform compile engine activity).andThen fun finding engine =>
      (performAll compile engine activities).map (finding :: ·)

theorem accounts_execute (engine : Engine κ) (ops : Array Op) (temps : Numbered UInt64) :
    engine.Accounts [] (engine.execute ops temps) := by
  obtain ⟨events, log, accounts⟩ := Machine.accounts_run ⟨engine.ctx, temps, #[]⟩ ops
  change engine.ctx.Accounts (Machine.run ⟨engine.ctx, temps, #[]⟩ ops).2.log.toList [] _
  rw [log]
  exact accounts

theorem accounts_perform (compile : Compile κ) (engine : Engine κ) (activity : Activity) :
    engine.Accounts (perform compile engine activity).value.refusals
      (perform compile engine activity) := by
  cases activity with
  | act action => exact accounts_step compile engine action
  | prepare registry ret => exact engine.ctx.accounts_prepare registry ret
  | push site => exact engine.ctx.accounts_push site
  | pop actual => exact engine.ctx.accounts_pop actual
  | flushStack => exact engine.ctx.accounts_flushStack
  | completeLinks block => exact engine.ctx.accounts_completeLinks block
  | lookupTarget target => exact engine.ctx.accounts_lookupTarget target
  | updateTarget block => exact engine.ctx.accounts_updateTarget block
  | reset => exact engine.ctx.accounts_reset
  | execute ops temps => exact accounts_execute engine ops temps

theorem accounts_performAll (compile : Compile κ) (engine : Engine κ)
    (activities : List Activity) :
    engine.Accounts ((performAll compile engine activities).value.flatMap Finding.refusals)
      (performAll compile engine activities) := by
  induction activities generalizing engine with
  | nil => exact .pure _ engine
  | cons activity activities ih =>
    exact (accounts_perform compile engine activity).andThen ((ih _).map _)

theorem agrees_execute (traces : Bool) (engine : Engine κ) (ops : Array Op)
    (temps : Numbered UInt64) :
    (engine.execute ops temps).Agrees (retraced traces)
      ((engine.retraced traces).execute ops temps) := by
  obtain ⟨logged, ran⟩ :=
    Machine.run_retraced traces #[] ⟨engine.ctx, temps, #[]⟩ ops
  change Machine.run ⟨(engine.retraced traces).ctx, temps, #[]⟩ ops = _ at ran
  unfold execute
  simp only [ran]
  exact ⟨rfl, rfl⟩

theorem agrees_perform (traces : Bool) (compile : Compile κ) (engine : Engine κ)
    (activity : Activity) :
    (perform compile engine activity).Agrees (retraced traces)
      (perform compile (engine.retraced traces) activity) := by
  have direct : ∀ {α : Type} {performed viewed : Outcome Context α} (f : α → Finding),
      performed.Agrees (Context.retraced traces) viewed →
      ((performed.within engine.withContext).map f).Agrees (retraced traces)
        ((viewed.within (engine.retraced traces).withContext).map f) :=
    fun f agrees => (agrees_within traces agrees engine).map f
  cases activity with
  | act action => exact (agrees_step traces compile engine action).map _
  | prepare registry ret => exact direct _ (engine.ctx.agrees_prepare traces registry ret)
  | push site => exact direct (fun _ => .done) (engine.ctx.agrees_push traces site)
  | pop actual => exact direct _ (engine.ctx.agrees_pop traces actual)
  | flushStack => exact direct (fun _ => .done) (engine.ctx.agrees_flushStack traces)
  | completeLinks block => exact direct _ (engine.ctx.agrees_completeLinks traces block)
  | lookupTarget target => exact direct _ (engine.ctx.agrees_lookupTarget traces target)
  | updateTarget block =>
    exact direct (fun _ => .done) (engine.ctx.agrees_updateTarget traces block)
  | reset => exact direct (fun _ => .done) (engine.ctx.agrees_reset traces)
  | execute ops temps => exact agrees_execute traces engine ops temps

theorem agrees_performAll (traces : Bool) (compile : Compile κ) (engine : Engine κ)
    (activities : List Activity) :
    (performAll compile engine activities).Agrees (retraced traces)
      (performAll compile (engine.retraced traces) activities) := by
  induction activities generalizing engine with
  | nil => exact ⟨rfl, rfl⟩
  | cons activity activities ih =>
    exact (agrees_perform traces compile engine activity).andThen fun _ later => (ih later).map _

/-! ## From creation on -/

/-- However an engine and its context are used after the engine has been created: every counter of
events that are always logged is the number of these events in the log, the slots that completions
report add up to those counted, and the errors are the refusals of call sites, in order. If
transfers are traced, the same holds of the counters of pops and of the cache of jump targets; if
not, nothing at that level is logged. With tracing switched the other way everything comes out the
same, and so does the engine, but for the switch. -/
theorem performAll_reports {config : Config} {compiler : κ} {made : Outcome (Engine κ) Unit}
    (created : create config compiler = .ok made) (compile : Compile κ)
    (activities : List Activity) :
    let ran := performAll compile made.state activities
    let log := made.events ++ ran.events
    let stats := ran.state.ctx.stats
    (∀ kind ∈ alwaysLogged, countOf kind.level kind.message log = kind.counter stats) ∧
      linkedIn log = stats.linksCompleted ∧
      errorsIn log = (ran.value.flatMap Finding.refusals).map (.slotsExhausted ·.capacity) ∧
      (config.traceTransfers = true →
        ∀ kind ∈ loggedIfTraced, countOf kind.level kind.message log = kind.counter stats) ∧
      (config.traceTransfers = false → ∀ event ∈ log, event.level ≠ .trace) ∧
      ∀ traces, ∃ other,
        create { config with traceTransfers := traces } compiler = .ok other ∧
        (performAll compile other.state activities).value = ran.value ∧
        (performAll compile other.state activities).state = ran.state.retraced traces := by
  obtain ⟨accepted, stored, rfl⟩ := create_eq_ok_iff.1 created
  intro ran log stats
  have creation : (Context.ofConfig config).Accounts [.contextCreated config] []
      (Context.ofConfig config) :=
    (Context.ofConfig config).accounts_uncounted (by simp [Event.level]) (by simp [Event.level])
      rfl (by simp [alwaysLogged, Event.message])
  have used : (Context.ofConfig config).Accounts ran.events _ ran.state.ctx :=
    accounts_performAll compile ⟨.empty, .ofConfig config, .empty, compiler⟩ activities
  -- every counter starts at zero, so that what was counted since is what it holds
  have accounts := creation.trans used
  refine ⟨fun kind member => ?_, ?_, accounts.errors, fun on kind member => ?_, accounts.untraced,
    fun traces => ?_⟩
  · refine (accounts.always kind member).of_zero ?_
    revert kind
    simp [alwaysLogged, Context.ofConfig]
  · exact (accounts.completed.trans (Nat.zero_add _)).symm
  · refine (accounts.traced on kind member).of_zero ?_
    revert kind
    simp [loggedIfTraced, Context.ofConfig]
  · obtain ⟨value, state⟩ := agrees_performAll traces compile
      ⟨.empty, .ofConfig config, .empty, compiler⟩ activities
    exact ⟨_, create_eq_ok_iff.2 ⟨accepted, stored, rfl⟩, value, state⟩

/-- The smallest configuration, with transfers traced. -/
def tracingConfig : Config := { Config.smallest with traceTransfers := true }

/-- An engine of that configuration, just built. -/
def tracing : Engine Unit := ⟨.empty, .ofConfig tracingConfig, .empty, ()⟩

/-- A deferred call and one that is refused, a push too many, the block that the first call waits
for, a return to it, a jump target that is not cached, and a flush by compiled code. -/
def varied : List Activity :=
  [.act (.call ⟨16⟩ ⟨32⟩), .act (.call ⟨48⟩ ⟨64⟩), .push ⟨⟨32⟩, ⟨0⟩, false⟩,
    .completeLinks ⟨⟨32⟩, ⟨7⟩⟩, .act (.ret ⟨32⟩), .lookupTarget ⟨5⟩,
    .execute #[.call .flushStack none none] .empty]

/-- Each of these is counted and logged, the refusal as an error. -/
theorem performAll_reports_varied :
    let ran := performAll .identical tracing varied
    let log := Event.contextCreated tracingConfig :: ran.events
    create tracingConfig () = .ok ⟨(), tracing, [.contextCreated tracingConfig]⟩ ∧
      ran.state.ctx.stats =
        { callSites := 1, linksDeferred := 1, linksCompleted := 1, shadowPushes := 2,
          shadowOverflows := 1, shadowFlushes := 1, shadowHits := 1, targetMisses := 1 } ∧
      ran.value.flatMap Finding.refusals = [⟨1⟩] ∧
      (∀ kind ∈ alwaysLogged,
        countOf kind.level kind.message log = kind.counter ran.state.ctx.stats) ∧
      linkedIn log = ran.state.ctx.stats.linksCompleted ∧ errorsIn log = [.slotsExhausted 1] ∧
      (∀ kind ∈ loggedIfTraced,
        countOf kind.level kind.message log = kind.counter ran.state.ctx.stats) := by
  have created : create tracingConfig () =
      .ok ⟨(), tracing, [.contextCreated tracingConfig]⟩ := rfl
  have counts : (performAll .identical tracing varied).state.ctx.stats =
      { callSites := 1, linksDeferred := 1, linksCompleted := 1, shadowPushes := 2,
        shadowOverflows := 1, shadowFlushes := 1, shadowHits := 1, targetMisses := 1 } := by
    decide +kernel
  have refused :
      (performAll .identical tracing varied).value.flatMap Finding.refusals = [⟨1⟩] := by
    decide +kernel
  obtain ⟨always, completed, errors, traced, -, -⟩ := performAll_reports created .identical varied
  rw [refused] at errors
  exact ⟨created, counts, refused, always, completed, errors, traced rfl⟩

end Engine

end TransferCache
