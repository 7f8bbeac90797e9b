import Mathlib.Logic.Function.Basic
import TransferCache.Proofs.Code.Drafts

/-!
# Two contexts in lockstep

Two contexts are created alike. One of them works only through compiled blocks, which are built and
run in any order; on the other the protocols that a block stands for are performed directly. What
the dispatcher does between blocks is done to both.

* `Pair.Lockstep`: the two contexts differ in nothing but the counts that compiled code does not
  keep, and every block is a draft.
* `Pair.run_agrees`: so it is after any number of moves, and at every move both sides replied the
  same.
-/

namespace TransferCache.Code

/-! ## Running a draft on given words -/

namespace Machine

/-- Writes a word to each of some registers. -/
def bindAll (machine : Machine) (word : Temp → UInt64) : List Temp → Machine
  | [] => machine
  | temp :: temps => (machine.bind temp (word temp)).bindAll word temps

theorem ctx_bindAll (machine : Machine) (word : Temp → UInt64) (temps : List Temp) :
    (machine.bindAll word temps).ctx = machine.ctx := by
  induction temps generalizing machine with
  | nil => rfl
  | cons temp temps ih => exact ih (machine.bind temp (word temp))

theorem temp?_bindAll {machine : Machine} {word : Temp → UInt64} {temps : List Temp} {temp : Temp}
    (bound : temp ∈ temps ∨ machine.temp? temp = some (word temp)) :
    (machine.bindAll word temps).temp? temp = some (word temp) := by
  induction temps generalizing machine with
  | nil => exact bound.resolve_left (fun member => nomatch member)
  | cons first temps ih =>
    apply ih
    rw [temp?_bind]
    rcases bound with member | held
    · rcases List.mem_cons.1 member with rfl | later
      · exact Or.inr (if_pos rfl)
      · exact Or.inl later
    · refine Or.inr ?_
      split
      · rename_i same
        rw [same]
      · exact held

end Machine

namespace Draft

/-- A machine whose registers hold the given words, as far as they are inputs of the draft. -/
def machine (draft : Draft) (ctx : Context) (word : Temp → UInt64) : Machine :=
  (Machine.ofContext ctx).bindAll word draft.inputs

theorem ctx_machine (draft : Draft) (ctx : Context) (word : Temp → UInt64) :
    (draft.machine ctx word).ctx = ctx := Machine.ctx_bindAll _ word draft.inputs

theorem supplied_machine (draft : Draft) (ctx : Context) (word : Temp → UInt64) :
    draft.Supplied (draft.machine ctx word) word :=
  fun _ member => Machine.temp?_bindAll (Or.inl member)

/-- No counter of the builder wraps around, and the operations are no more than one run executes. -/
structure Bounded (draft : Draft) : Prop where
  temps_le : draft.builder.temps ≤ UInt16.size
  labels_le : draft.builder.labels ≤ UInt16.size
  size_le : draft.builder.ops.size ≤ stepBound

/-- Appends a push for the call site that was prepared for it, if it was given a slot. -/
def afterPush (draft : Draft) (builder : Builder) :
    Except SlotsExhausted CallSite → Draft
  | .ok site => draft.appended builder (.push site)
  | .error _ => { draft with builder }

end Draft

/-! ## Moves -/

/-- A step that two contexts take together. Blocks are named by numbers. -/
inductive Move where
  /-- Give out a register for an address. -/
  | newInput (block : Nat)
  | push (block : Nat) (registry : Registry) (ret : GuestAddr)
  | pop (block : Nat) (actual : Temp)
  | flush (block : Nat)
  | lookup (block : Nat) (target : Temp)
  /-- Run what has been built, with these words in its inputs. -/
  | run (block : Nat) (word : Temp → UInt64)
  | completeLinks (linked : Block)
  | updateTarget (found : Block)
  | flushStack
  | reset

/-- What one side answers to a move. -/
inductive Reply where
  | prepared (result : Except SlotsExhausted CallSite)
  | left (result : Except Fault Exit)
  | linked (count : Nat)
  | done
  deriving DecidableEq

/-- A context that works through compiled blocks, one on which protocols are performed directly,
and the blocks. -/
structure Pair where
  lowered : Context
  direct : Context
  draft : Nat → Draft

namespace Pair

def ofContext (ctx : Context) : Pair := ⟨ctx, ctx, fun _ => .empty⟩

def setDraft (pair : Pair) (block : Nat) (draft : Draft) : Pair :=
  { pair with draft := Function.update pair.draft block draft }

/-- Lets both contexts perform an operation. -/
def both {α : Type} (pair : Pair) (operation : Context → Outcome Context α) : (α × α) × Pair :=
  let lowered := operation pair.lowered
  let direct := operation pair.direct
  ((lowered.value, direct.value),
    { pair with lowered := lowered.state, direct := direct.state })

/-- Takes a step on both sides. The replies are those of the lowered and of the direct side. -/
def step (pair : Pair) : Move → (Reply × Reply) × Pair
  | .newInput block =>
    ((.done, .done), pair.setDraft block (pair.draft block).newInput)
  | .push block registry ret =>
    let draft := pair.draft block
    let emitted := draft.builder.emitPush pair.lowered registry ret
    let prepared := pair.direct.prepare registry ret
    let (lowered, builder) := emitted.state
    ((.prepared emitted.value, .prepared prepared.value),
      { pair with lowered, direct := prepared.state }.setDraft block
        (draft.afterPush builder prepared.value))
  | .pop block actual =>
    let draft := pair.draft block
    ((.done, .done), pair.setDraft block
      (draft.appended (draft.builder.emitPop pair.lowered actual) (.pop actual)))
  | .flush block =>
    let draft := pair.draft block
    ((.done, .done), pair.setDraft block (draft.appended draft.builder.emitFlush .flush))
  | .lookup block target =>
    let draft := pair.draft block
    ((.done, .done), pair.setDraft block
      (draft.appended (draft.builder.emitLookup target) (.lookup target)))
  | .run block word =>
    let draft := pair.draft block
    let (exit, machine) := (draft.machine pair.lowered word).run draft.builder.ops
    let (reached, direct) := directly word draft.calls pair.direct
    ((.left exit, .left (.ok reached)), { pair with lowered := machine.ctx, direct })
  | .completeLinks linked =>
    let (counts, next) := pair.both (·.completeLinks linked)
    ((.linked counts.1, .linked counts.2), next)
  | .updateTarget found => ((.done, .done), (pair.both (·.updateTarget found)).2)
  | .flushStack => ((.done, .done), (pair.both Context.flushStack).2)
  | .reset => ((.done, .done), (pair.both Context.reset).2)

/-- Addresses are read from registers that the block gave out for them, and blocks are run within
the bounds. -/
def Admits (pair : Pair) : Move → Prop
  | .pop block actual => actual ∈ (pair.draft block).inputs
  | .lookup block target => target ∈ (pair.draft block).inputs
  | .run block _ => (pair.draft block).Bounded
  | _ => True

/-- Takes steps in order and gives the replies in the same order. -/
def run (pair : Pair) : List Move → List (Reply × Reply) × Pair
  | [] => ([], pair)
  | move :: moves =>
    let (replies, next) := pair.step move
    let (later, last) := next.run moves
    (replies :: later, last)

/-- Every step is admitted where it is taken. -/
def AdmitsAll (pair : Pair) : List Move → Prop
  | [] => True
  | move :: moves => pair.Admits move ∧ (pair.step move).2.AdmitsAll moves

/-! ## Steps keep the lockstep -/

/-- The contexts differ in nothing but the counts that compiled code does not keep; their stack has
the policy and capacity that all blocks were built for. -/
structure Lockstep (policy : OverflowPolicy) (capacity : Nat) (pair : Pair) : Prop where
  lowered_eq : pair.lowered = pair.direct.uncounted
  shaped : Shaped policy capacity pair.direct
  built : ∀ block, Draft.Built policy capacity (pair.draft block)

variable {policy : OverflowPolicy} {capacity : Nat} {pair : Pair}

theorem Lockstep.shapedLowered (lockstep : pair.Lockstep policy capacity) :
    Shaped policy capacity pair.lowered :=
  lockstep.shaped.of_shadow_eq (by rw [lockstep.lowered_eq, Context.shadow_uncounted])

/-- Another draft may take the place of a block. -/
theorem Lockstep.setDraft (lockstep : pair.Lockstep policy capacity) {block : Nat} {draft : Draft}
    (built : Draft.Built policy capacity draft) :
    (pair.setDraft block draft).Lockstep policy capacity := by
  refine ⟨lockstep.lowered_eq, lockstep.shaped, fun other => ?_⟩
  change Draft.Built policy capacity (Function.update pair.draft block draft other)
  rcases eq_or_ne other block with rfl | apart
  · rw [Function.update_self]
    exact built
  · rw [Function.update_of_ne apart]
    exact lockstep.built other

/-- The contexts may change as long as they change alike. -/
theorem Lockstep.withContexts (lockstep : pair.Lockstep policy capacity) {lowered direct : Context}
    (same : lowered = direct.uncounted) (shaped : Shaped policy capacity direct) :
    { pair with lowered, direct : Pair }.Lockstep policy capacity :=
  ⟨same, shaped, lockstep.built⟩

/-- An operation that leaves the counts alone may be performed on both sides. -/
theorem Lockstep.both {α : Type} (lockstep : pair.Lockstep policy capacity)
    (operation : Context → Outcome Context α)
    (commutes : ∀ ctx : Context, operation ctx.uncounted =
      (operation ctx).within Context.uncounted)
    (shaped : Shaped policy capacity (operation pair.direct).state) :
    (pair.both operation).1.1 = (pair.both operation).1.2 ∧
      (pair.both operation).2.Lockstep policy capacity := by
  have same : operation pair.lowered = (operation pair.direct).within Context.uncounted := by
    rw [lockstep.lowered_eq]
    exact commutes pair.direct
  have value := congrArg Outcome.value same
  exact ⟨value, lockstep.withContexts (congrArg Outcome.state same) shaped⟩

/-- Emitting a push prepares the call site as the direct side does. -/
theorem emitPush_uncounted (builder : Builder) (ctx : Context) (registry : Registry)
    (ret : GuestAddr) :
    (builder.emitPush ctx.uncounted registry ret).value = (ctx.prepare registry ret).value ∧
      (builder.emitPush ctx.uncounted registry ret).state.1 =
        (ctx.prepare registry ret).state.uncounted ∧
      (builder.emitPush ctx.uncounted registry ret).state.2 =
        match (ctx.prepare registry ret).value with
        | .error _ => builder
        | .ok site => builder.appendPush ctx.shadow.policy ctx.shadow.capacity site := by
  unfold Builder.emitPush
  rw [Context.prepare_uncounted]
  dsimp only [Outcome.value_within, Outcome.state_within, Context.shadow_uncounted]
  cases (ctx.prepare registry ret).value with
  | error fault => exact ⟨rfl, rfl, rfl⟩
  | ok site => exact ⟨rfl, rfl, rfl⟩

theorem Lockstep.push (lockstep : pair.Lockstep policy capacity) (block : Nat)
    (registry : Registry) (ret : GuestAddr) :
    (pair.step (.push block registry ret)).1.1 = (pair.step (.push block registry ret)).1.2 ∧
      (pair.step (.push block registry ret)).2.Lockstep policy capacity := by
  rcases emitPush_uncounted (pair.draft block).builder pair.direct registry ret with
    ⟨value, state, builder⟩
  rw [← lockstep.lowered_eq] at value state builder
  refine ⟨congrArg Reply.prepared value, ?_⟩
  have shaped := lockstep.shaped.prepare registry ret
  apply (lockstep.withContexts state shaped).setDraft
  change Draft.Built policy capacity ((pair.draft block).afterPush
    ((pair.draft block).builder.emitPush pair.lowered registry ret).state.2 _)
  rw [builder]
  cases (pair.direct.prepare registry ret).value with
  | error fault => exact lockstep.built block
  | ok site =>
    dsimp only [Draft.afterPush]
    rw [lockstep.shaped.policy_eq, lockstep.shaped.capacity_eq]
    exact (lockstep.built block).push site

theorem Lockstep.run (lockstep : pair.Lockstep policy capacity) {block : Nat}
    (bounded : (pair.draft block).Bounded) (word : Temp → UInt64) :
    (pair.step (.run block word)).1.1 = (pair.step (.run block word)).1.2 ∧
      (pair.step (.run block word)).2.Lockstep policy capacity := by
  obtain ⟨exit, state⟩ := (lockstep.built block).run bounded.temps_le bounded.labels_le
    bounded.size_le
    (((pair.draft block).ctx_machine pair.lowered word).trans lockstep.lowered_eq)
    lockstep.shaped ((pair.draft block).supplied_machine pair.lowered word)
  refine ⟨congrArg Reply.left exit, ?_⟩
  exact lockstep.withContexts state (lockstep.shaped.directly word _)

/-- At a move both sides reply the same and stay in lockstep. -/
theorem Lockstep.step (lockstep : pair.Lockstep policy capacity) {move : Move}
    (admitted : pair.Admits move) :
    (pair.step move).1.1 = (pair.step move).1.2 ∧
      (pair.step move).2.Lockstep policy capacity := by
  cases move with
  | newInput block => exact ⟨rfl, lockstep.setDraft (lockstep.built block).newInput⟩
  | push block registry ret => exact lockstep.push block registry ret
  | pop block actual =>
    exact ⟨rfl, lockstep.setDraft ((lockstep.built block).pop lockstep.shapedLowered admitted)⟩
  | flush block => exact ⟨rfl, lockstep.setDraft (lockstep.built block).flush⟩
  | lookup block target =>
    exact ⟨rfl, lockstep.setDraft ((lockstep.built block).lookup admitted)⟩
  | run block word => exact lockstep.run admitted word
  | completeLinks linked =>
    obtain ⟨same, next⟩ := lockstep.both (·.completeLinks linked)
      (fun ctx => ctx.completeLinks_uncounted linked) (lockstep.shaped.of_shadow_eq rfl)
    exact ⟨congrArg Reply.linked same, next⟩
  | updateTarget found =>
    obtain ⟨-, next⟩ := lockstep.both (·.updateTarget found)
      (fun ctx => ctx.updateTarget_uncounted found) (lockstep.shaped.of_shadow_eq rfl)
    exact ⟨rfl, next⟩
  | flushStack =>
    obtain ⟨-, next⟩ := lockstep.both Context.flushStack Context.flushStack_uncounted
      lockstep.shaped.flushStack
    exact ⟨rfl, next⟩
  | reset =>
    obtain ⟨-, next⟩ := lockstep.both Context.reset Context.reset_uncounted lockstep.shaped.reset
    exact ⟨rfl, next⟩

/-! ## Runs -/

theorem Lockstep.runAll (lockstep : pair.Lockstep policy capacity) {moves : List Move}
    (admitted : pair.AdmitsAll moves) :
    (∀ replies ∈ (pair.run moves).1, replies.1 = replies.2) ∧
      (pair.run moves).2.Lockstep policy capacity := by
  induction moves generalizing pair with
  | nil => exact ⟨fun replies member => (nomatch member), lockstep⟩
  | cons move moves ih =>
    obtain ⟨here, later⟩ := admitted
    obtain ⟨same, next⟩ := lockstep.step here
    obtain ⟨agree, last⟩ := ih next later
    refine ⟨fun replies member => ?_, last⟩
    rcases List.mem_cons.1 member with rfl | member
    · exact same
    · exact agree replies member

theorem lockstep_ofContext {config : Config} {made : Outcome Context Unit}
    (created : Context.create config = .ok made) :
    (ofContext made.state).Lockstep config.overflow config.stackSize.toNat := by
  obtain ⟨-, stored, -⟩ := Context.create_eq_ok_iff.1 created
  obtain ⟨state, wf⟩ := Context.of_create created
  rw [state]
  have limit : (Context.ofConfig config).shadow.limit = config.stackSize.toNat + 1 :=
    Array.size_replicate
  refine ⟨(Context.uncounted_ofConfig config).symm, ⟨⟨wf, ?_⟩, rfl, ?_⟩, fun _ => .empty⟩
  · exact limit ▸ stored
  · exact congrArg Nat.pred limit

/-- Two contexts are created alike; on one of them blocks are built and run, on the other their
protocols are performed. A run of a block never faults, it leaves for host code exactly if a pop or
a lookup led there, and after any number of moves the contexts differ in nothing but the counts of
pushes and of outcomes of pops. -/
theorem run_agrees {config : Config} {made : Outcome Context Unit}
    (created : Context.create config = .ok made) {moves : List Move}
    (admitted : (ofContext made.state).AdmitsAll moves) :
    (∀ replies ∈ ((ofContext made.state).run moves).1, replies.1 = replies.2) ∧
      ((ofContext made.state).run moves).2.lowered =
        ((ofContext made.state).run moves).2.direct.uncounted := by
  obtain ⟨agree, lockstep⟩ := (lockstep_ofContext created).runAll admitted
  exact ⟨agree, lockstep.lowered_eq⟩

/-- Builds a block that calls and returns, and runs it once its return block exists. -/
def returning : List Move :=
  [.push 0 .empty ⟨16⟩, .newInput 0, .pop 0 ⟨2⟩, .completeLinks ⟨⟨16⟩, ⟨10⟩⟩,
    .run 0 fun _ => 16]

/-- The block leaves for the code that its return was linked to. -/
theorem run_agrees_returning :
    Context.create .smallest = .ok Context.smallest ∧
      (ofContext Context.smallest.state).AdmitsAll returning ∧
      (∀ replies ∈ ((ofContext Context.smallest.state).run returning).1, replies.1 = replies.2) ∧
      ((ofContext Context.smallest.state).run returning).1.getLast? =
        some (.left (.ok (.leave ⟨10⟩)), .left (.ok (.leave ⟨10⟩))) ∧
      ((ofContext Context.smallest.state).run returning).2.lowered =
        ((ofContext Context.smallest.state).run returning).2.direct.uncounted := by
  have admitted : (ofContext Context.smallest.state).AdmitsAll returning := by
    refine ⟨trivial, trivial, ?_, trivial, ⟨?_, ?_, ?_⟩, trivial⟩
    · exact List.mem_cons_self
    · decide +kernel
    · decide +kernel
    · decide +kernel
  obtain ⟨agree, lowered⟩ := run_agrees Context.create_smallest admitted
  refine ⟨Context.create_smallest, admitted, agree, ?_, lowered⟩
  decide +kernel

end Pair

end TransferCache.Code
