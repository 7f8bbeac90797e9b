import TransferCache.Proofs.Code.Exactness
import TransferCache.Proofs.Code.Sequencing
import TransferCache.Proofs.Context.Dimensions

/-!
# Accepted sizes

Sizes are checked from below only, and the storage of a stack has one place more than the stack has
frames. So the largest size that a word can give is accepted although its storage has no size that a
word can give, and no context of that size can be built (`largestStack_wraps`). Every smaller stack
is exact for good: however protocols and emitted blocks are mixed, no sum or difference on its
sizes, its top and its live count wraps around, and no index leaves the storage.

That is so for blocks that are run to their end. A run that is cut off between two stores of a
protocol leaves a top and a live count that disagree, and then a difference does wrap around
(`not_exactSizes_interrupted`).

* `Arrives`: the contexts that protocols and runs of emitted blocks lead to.
* `arrives_exact`: all of them have exact sizes.
-/

namespace TransferCache.Code

/-! ## Contexts on the way -/

/-- The context is reached by protocols and by runs of blocks that were emitted for stacks of this
policy and capacity, in any order. A run that is cut off may stop in the middle of a protocol and is
not one of them; what it leaves need not be exact (`not_exactSizes_interrupted`). -/
inductive Arrives (policy : OverflowPolicy) (capacity : Nat) (start : Context) : Context → Prop
  | start : Arrives policy capacity start start
  | protocols {ctx later : Context} (arrived : Arrives policy capacity start ctx)
    (reached : ctx.Reaches later) : Arrives policy capacity start later
  | block {ctx : Context} {draft : Draft} (arrived : Arrives policy capacity start ctx)
    (built : draft.Built policy capacity) (numbered : draft.WellNumbered) (word : Temp → UInt64)
    (ended : ((draft.machine ctx word).run draft.builder.ops).1 ≠ .error .noExit) :
    Arrives policy capacity start ((draft.machine ctx word).run draft.builder.ops).2.ctx

variable {policy : OverflowPolicy} {capacity : Nat} {start ctx later : Context}

theorem Shaped.reaches (shaped : Shaped policy capacity ctx) (reached : ctx.Reaches later) :
    Shaped policy capacity later := by
  induction reached with
  | refl => exact shaped
  | prepare registry ret _ ih => exact ih.prepare registry ret
  | push site _ ih => exact ih.push site
  | pop actual _ ih => exact ih.pop actual
  | flushStack _ ih => exact ih.flushStack
  | completeLinks block _ ih => exact ih.of_shadow_eq rfl
  | lookupTarget target _ ih => exact ih.lookupTarget target
  | updateTarget block _ ih => exact ih.of_shadow_eq rfl
  | reset _ ih => exact ih.reset

theorem Shaped.machine (shaped : Shaped policy capacity ctx) (draft : Draft)
    (word : Temp → UInt64) : Shaped policy capacity (draft.machine ctx word).ctx := by
  rw [draft.ctx_machine]
  exact shaped

theorem Shaped.block (shaped : Shaped policy capacity ctx) {draft : Draft}
    (built : draft.Built policy capacity) (numbered : draft.WellNumbered) (word : Temp → UInt64)
    (ended : ((draft.machine ctx word).run draft.builder.ops).1 ≠ .error .noExit) :
    Shaped policy capacity ((draft.machine ctx word).run draft.builder.ops).2.ctx := by
  have onMachine := shaped.machine draft word
  have supplied := draft.supplied_machine ctx word
  obtain ⟨-, sameStack⟩ := built.run_of_shaped numbered onMachine supplied ended
  exact (onMachine.directly word draft.calls).of_shadow_eq sameStack

theorem Arrives.shaped (arrived : Arrives policy capacity start ctx)
    (shaped : Shaped policy capacity start) : Shaped policy capacity ctx := by
  induction arrived with
  | start => exact shaped
  | protocols _ reached ih => exact ih.reaches reached
  | block _ built numbered word ended ih => exact ih.block built numbered word ended

/-! ## Exact sizes -/

/-- Nothing that is done next to the stack of the context, which has room for so many frames, wraps
around or leaves its storage. -/
structure ExactSizes (policy : OverflowPolicy) (capacity : Nat) (ctx : Context) : Prop where
  capacity_eq : ctx.shadow.capacity = capacity
  limit_eq : ctx.shadow.limit = capacity + 1
  /-- The limit is what compiled code reads. -/
  limit_word : (Machine.loadField ctx.shadow .limit).toNat = capacity + 1
  /-- Protocols performed directly. -/
  exact : ctx.shadow.Exact
  /-- The count that is put into a block that pushes. -/
  emitted : minus? ctx.shadow.capacity 1 = some (ctx.shadow.capacity - 1)
  /-- Emitted blocks are not left with a fault, other than by being cut off, and whatever they add
  they add exactly. -/
  block : ∀ draft word, Draft.Built policy capacity draft → draft.WellNumbered →
    (∀ fault, ((draft.machine ctx word).run draft.builder.ops).1 = .error fault →
      fault = .noExit) ∧
      ∃ labels, Labels.ofOps draft.builder.ops = .ok labels ∧
        MeetsFrom Machine.AddsExactly draft.builder.ops labels ⟨0, draft.machine ctx word⟩

theorem Shaped.exactSizes (shaped : Shaped policy capacity ctx) :
    ExactSizes policy capacity ctx := by
  have fits := shaped.fits
  have limit : ctx.shadow.limit = capacity + 1 := by rw [fits.wf.limit_eq, shaped.capacity_eq]
  have read := toNat_toUInt64 fits.limit_lt
  refine ⟨shaped.capacity_eq, limit, read.trans limit, fits.wf.exact fits.limit_lt,
    minus?_of_le fits.wf.capacity_pos, fun draft word built numbered => ?_⟩
  have onMachine := shaped.machine draft word
  have supplied := draft.supplied_machine ctx word
  have faithful := built.faithful numbered.temps_le numbered.labels_le
  have adds := built.addsExactly numbered.temps_le numbered.labels_le
  have through := adds.throughout _ word onMachine supplied
  refine ⟨fun fault failed => ?_, through.meetsFrom faithful.distinct faithful.leads⟩
  by_contra other
  have ended : ((draft.machine ctx word).run draft.builder.ops).1 ≠ .error .noExit := by
    rw [failed]
    exact fun same => other (Except.error.inj same)
  obtain ⟨exit, -⟩ := built.run_of_shaped numbered onMachine supplied ended
  cases failed.symm.trans exit

/-- A stack that is not of the largest size is created with exactly the storage for its frames and
the base. From then on no sum or difference on its sizes, its top and its live count wraps around,
and no index leaves the storage: not where protocols are performed directly, and not where emitted
blocks are run. -/
theorem arrives_exact {config : Config} (accepted : config.validate = .ok ())
    (stored : config.stackSize.toNat + 1 < UInt64.size) :
    ∃ made, Context.create config = .ok made ∧
      ShadowStack.ofCapacity? config.stackSize.toNat config.overflow = some made.state.shadow ∧
      ∀ ctx, Arrives config.overflow config.stackSize.toNat made.state ctx →
        ExactSizes config.overflow config.stackSize.toNat ctx := by
  have created := Context.create_eq_ok_iff.2 ⟨accepted, stored, rfl⟩
  have shaped := (Pair.lockstep_ofContext created).shaped
  refine ⟨_, created, ?_, fun ctx arrived => (arrived.shaped shaped).exactSizes⟩
  exact ShadowStack.ofCapacity?_of_lt stored config.overflow

/-- The smallest ring. -/
def smallestRing : Config := { Config.smallest with overflow := .wrap }

/-- A block that calls once. -/
def calling : Draft :=
  Draft.empty.appended (Builder.empty.appendPush .wrap 1 ⟨⟨16⟩, ⟨0⟩, false⟩)
    (.push ⟨⟨16⟩, ⟨0⟩, false⟩)

/-- The ring once the block has filled it. -/
def filled : Context :=
  ((calling.machine (.ofConfig smallestRing) fun _ => 0).run calling.builder.ops).2.ctx

/-- A call on the full ring steps from its only index round to the same one, whether it is performed
directly or by the block. -/
theorem arrives_exact_filled :
    smallestRing.validate = .ok () ∧
      smallestRing.stackSize.toNat + 1 < UInt64.size ∧
      Context.create smallestRing =
        .ok ⟨(), .ofConfig smallestRing, [.contextCreated smallestRing]⟩ ∧
      Arrives .wrap 1 (.ofConfig smallestRing) filled ∧
      filled.shadow.top = 1 ∧ filled.shadow.ringLive = 1 ∧
      filled.shadow.advance? = some (1, true) ∧
      (filled.push ⟨⟨32⟩, ⟨0⟩, false⟩).state.shadow.pop? =
        some (filled.push ⟨⟨32⟩, ⟨0⟩, false⟩).state.shadow.pop ∧
      (∀ fault, ((calling.machine filled fun _ => 0).run calling.builder.ops).1 = .error fault →
        fault = .noExit) ∧
      ∃ labels, Labels.ofOps calling.builder.ops = .ok labels ∧
        MeetsFrom Machine.AddsExactly calling.builder.ops labels
          ⟨0, calling.machine filled fun _ => 0⟩ := by
  have accepted : smallestRing.validate = .ok () := by decide
  have stored : smallestRing.stackSize.toNat + 1 < UInt64.size := by decide
  have built : calling.Built .wrap 1 := Draft.Built.empty.push ⟨⟨16⟩, ⟨0⟩, false⟩
  have numbered : calling.WellNumbered := ⟨by decide +kernel, by decide +kernel⟩
  have arrived : Arrives .wrap 1 (.ofConfig smallestRing) filled :=
    .block .start built numbered _ (by decide +kernel)
  obtain ⟨made, created, -, exact⟩ := arrives_exact accepted stored
  obtain ⟨-, -, rfl⟩ := Context.create_eq_ok_iff.1 created
  obtain ⟨faults, adds⟩ := (exact filled arrived).block calling (fun _ => 0) built numbered
  have stepped := (exact filled arrived).exact.advance
  have popped := (exact _ (arrived.protocols (.push ⟨⟨32⟩, ⟨0⟩, false⟩ .refl))).exact.pop
  refine ⟨accepted, stored, created, arrived, ?_, ?_, stepped.trans ?_, popped, faults, adds⟩
  · decide +kernel
  · decide +kernel
  · decide +kernel

/-- A stack of the largest size is accepted, but no word is the size of its storage: the sum wraps
around, the limit that compiled code would read is zero, and the context is not built. -/
def largestStack : Config := { Config.smallest with stackSize := 0xffffffffffffffff }

theorem largestStack_wraps :
    largestStack.validate = .ok () ∧
      ShadowStack.ofCapacity? largestStack.stackSize.toNat largestStack.overflow = none ∧
      Context.create largestStack = .error .noStorage ∧
      largestStack.stackSize + 1 = 0 ∧
      Machine.loadField (Context.ofConfig largestStack).shadow .limit = 0 := by
  have validated : largestStack.validate = .ok () := by decide
  have unbuilt :
      ShadowStack.ofCapacity? largestStack.stackSize.toNat largestStack.overflow = none :=
    ShadowStack.ofCapacity?_eq_none_iff.2 (by decide)
  refine ⟨validated, unbuilt, ?_, by decide, ?_⟩
  · unfold Context.create
    rw [validated, unbuilt]
  · have limit : (Context.ofConfig largestStack).shadow.limit =
        largestStack.stackSize.toNat + 1 := Array.size_replicate
    change (Context.ofConfig largestStack).shadow.limit.toUInt64 = 0
    rw [limit]
    decide

/-! ## Blocks that are cut off -/

/-- A block that does nothing but empty the stack, over and over. -/
def flushing : Nat → Draft
  | 0 => .empty
  | count + 1 => (flushing count).appended (flushing count).builder.emitFlush .flush

theorem builder_flushing (count : Nat) :
    (flushing count).builder = ⟨Array.replicate count (.call .flushStack none none), 0, 0⟩ := by
  induction count with
  | zero => rfl
  | succ count ih =>
    change (flushing count).builder.emitFlush = _
    rw [ih, Array.replicate_succ]
    rfl

theorem inputs_flushing (count : Nat) : (flushing count).inputs = [] := by
  induction count with
  | zero => rfl
  | succ count ih => exact ih

theorem built_flushing (count : Nat) : (flushing count).Built policy capacity := by
  induction count with
  | zero => exact .empty
  | succ count ih => exact ih.flush

/-- What so many flushes of an empty stack leave behind: they are counted and logged. -/
def flushed (machine : Machine) (count : Nat) : Machine where
  ctx :=
    { machine.ctx with
      stats :=
        { machine.ctx.stats with shadowFlushes := machine.ctx.stats.shadowFlushes + count } }
  temps := machine.temps
  log := machine.log ++ Array.replicate count .stackFlushed

theorem flushed_succ {machine : Machine} (empty : machine.ctx.shadow.flush = machine.ctx.shadow)
    (count : Nat) :
    flushed (machine.perform Context.flushStack).2 count = flushed machine (count + 1) := by
  have logged : machine.log ++ [Event.stackFlushed] ++ Array.replicate count .stackFlushed =
      machine.log ++ Array.replicate (count + 1) .stackFlushed := by
    apply Array.toList_inj.1
    simp [List.replicate_succ]
  have counted := Nat.add_right_comm machine.ctx.stats.shadowFlushes 1 count
  simp only [flushed, Machine.perform, Context.flushStack, empty, logged, counted, Nat.add_assoc]

/-- Flushing an empty stack changes nothing but a counter and the log. -/
theorem runFrom_flushing {ops : Array Op} (labels : Labels) {count position : Nat}
    (flushes : ∀ offset < count, ops[position + offset]? = some (.call .flushStack none none))
    (budget : Nat) {machine : Machine}
    (empty : machine.ctx.shadow.flush = machine.ctx.shadow) :
    Machine.runFrom ops labels (count + budget) position machine =
      Machine.runFrom ops labels budget (position + count) (flushed machine count) := by
  induction count generalizing position machine with
  | zero =>
    have none : flushed machine 0 = machine := by simp [flushed]
    rw [none, Nat.zero_add, Nat.add_zero]
  | succ count ih =>
    have here : ops[position]? = some (.call .flushStack none none) :=
      flushes 0 (Nat.succ_pos count)
    have later : ∀ offset < count,
        ops[position + 1 + offset]? = some (.call .flushStack none none) := by
      intro offset below
      rw [Nat.add_assoc, Nat.add_comm 1 offset]
      exact flushes (offset + 1) (Nat.succ_lt_succ below)
    have stillEmpty : (machine.perform Context.flushStack).2.ctx.shadow.flush =
        (machine.perform Context.flushStack).2.ctx.shadow := rfl
    rw [Nat.add_right_comm, runFrom_succ here, Nat.add_comm count 1, ← Nat.add_assoc,
      Nat.add_comm 1 count, ← flushed_succ empty, ← ih later stillEmpty]
    rfl

/-- A call on the smallest ring, the first in its block. -/
def pushOps : Array Op := (Builder.empty.appendPush .wrap 1 ⟨⟨16⟩, ⟨0⟩, false⟩).ops

/-- The block flushes so many times, and then calls. -/
def lateCall (count : Nat) : Draft :=
  (flushing count).appended ((flushing count).builder.appendPush .wrap 1 ⟨⟨16⟩, ⟨0⟩, false⟩)
    (.push ⟨⟨16⟩, ⟨0⟩, false⟩)

theorem built_lateCall (count : Nat) : (lateCall count).Built .wrap 1 :=
  (built_flushing count).push ⟨⟨16⟩, ⟨0⟩, false⟩

theorem builder_lateCall (count : Nat) :
    (lateCall count).builder =
      ⟨Array.replicate count (.call .flushStack none none) ++ pushOps, 3, 2⟩ := by
  change (flushing count).builder.appendPush .wrap 1 _ = _
  rw [builder_flushing]
  rfl

theorem wellNumbered_lateCall (count : Nat) : (lateCall count).WellNumbered := by
  constructor
  · rw [builder_lateCall]
    exact (by decide : 3 ≤ UInt16.size)
  · rw [builder_lateCall]
    exact (by decide : 2 ≤ UInt16.size)

theorem machine_lateCall (count : Nat) (ctx : Context) (word : Temp → UInt64) :
    (lateCall count).machine ctx word = .ofContext ctx := by
  have none : (lateCall count).inputs = [] := by
    unfold lateCall Draft.appended
    exact inputs_flushing count
  unfold Draft.machine
  rw [none]
  rfl

/-- Once the flushes are done, only the call is left to run, with what is left of the budget. -/
theorem run_lateCall {count budget : Nat} (spent : count + budget = stepBound)
    (empty : ctx.shadow.flush = ctx.shadow) (word : Temp → UInt64) {labels : Labels}
    (accepted : Labels.ofOps pushOps = .ok labels) :
    ((lateCall count).machine ctx word).run (lateCall count).builder.ops =
      Machine.runFrom pushOps labels budget 0 (flushed (.ofContext ctx) count) := by
  have numbered := wellNumbered_lateCall count
  have distinct := ((built_lateCall count).faithful numbered.temps_le numbered.labels_le).distinct
  rw [machine_lateCall]
  rw [builder_lateCall] at distinct ⊢
  obtain ⟨whole, wholeAccepted, resolves⟩ := ofOps_eq_ok distinct
  have pushDistinct : (placed pushOps.toList).Nodup := by decide +kernel
  obtain ⟨known, knownAccepted, pushResolves⟩ := ofOps_eq_ok pushDistinct
  cases knownAccepted.symm.trans accepted
  have flushes : ∀ offset < count,
      (Array.replicate count (.call .flushStack none none) ++ pushOps)[0 + offset]? =
        some (.call .flushStack none none) := by
    intro offset below
    rw [Nat.zero_add, Array.getElem?_append_left (by rwa [Array.size_replicate]),
      Array.getElem?_replicate, if_pos below]
  have behind := runFrom_append_right resolves pushResolves (by decide +kernel) budget 0
    (flushed (.ofContext ctx) count)
  rw [Array.size_replicate, Nat.add_zero] at behind
  rw [Machine.run_eq_runFrom wholeAccepted, ← spent, runFrom_flushing whole flushes budget empty,
    Nat.zero_add, behind]

/-- A block that returns once. -/
def returning : Draft :=
  let start := Draft.empty.newInput
  start.appended (start.builder.emitPop (.ofConfig smallestRing) ⟨0⟩) (.pop ⟨0⟩)

theorem built_returning : returning.Built .wrap 1 := by
  have created : Context.create smallestRing =
      .ok ⟨(), .ofConfig smallestRing, [.contextCreated smallestRing]⟩ := rfl
  have shaped : Shaped .wrap 1 (.ofConfig smallestRing) := (Pair.lockstep_ofContext created).shaped
  exact Draft.Built.empty.newInput.pop shaped List.mem_cons_self

/-- The ring once a call site has been compiled. -/
def compiled : Context := ((Context.ofConfig smallestRing).prepare .empty ⟨16⟩).state

/-- The ring once a call from the site was cut off after so many flushes: the frame is on the stack,
but it is not counted. -/
def interrupted (count : Nat) : Context :=
  { compiled with
    shadow := ⟨#[.base, ⟨⟨16⟩, ⟨0⟩⟩], 1, 0, .wrap⟩
    stats := { compiled.stats with shadowFlushes := count } }

/-- With ten operations left for it, the call stores the top of the stack and is cut off before it
stores the live count. -/
theorem run_lateCall_of_spent {count : Nat} (spent : count + 10 = stepBound) :
    (((lateCall count).machine compiled fun _ => 0).run (lateCall count).builder.ops).1 =
        .error .noExit ∧
      (((lateCall count).machine compiled fun _ => 0).run (lateCall count).builder.ops).2.ctx =
        interrupted count := by
  have accepted : Labels.ofOps pushOps = .ok ⟨#[some 6, some 11]⟩ := by decide +kernel
  have bound : stepBound = 65526 + 10 := by decide
  rw [run_lateCall spent rfl _ accepted]
  obtain rfl : count = 65526 := Nat.add_right_cancel (spent.trans bound)
  decide +kernel

/-- A call site is compiled, and the call from it is cut off. Its frame is on the stack but not
counted, so the count of the next return is one below zero: it wraps around, and its store is
refused. -/
theorem not_exactSizes_interrupted :
    ((Context.ofConfig smallestRing).prepare .empty ⟨16⟩).value = .ok ⟨⟨16⟩, ⟨0⟩, false⟩ ∧
      Arrives .wrap 1 (.ofConfig smallestRing) compiled ∧
      (lateCall 65526).Built .wrap 1 ∧ (lateCall 65526).WellNumbered ∧
      (((lateCall 65526).machine compiled fun _ => 0).run (lateCall 65526).builder.ops).1 =
        .error .noExit ∧
      (((lateCall 65526).machine compiled fun _ => 0).run (lateCall 65526).builder.ops).2.ctx =
        interrupted 65526 ∧
      (interrupted 65526).shadow.top = 1 ∧ minus? (interrupted 65526).shadow.ringLive 1 = none ∧
      returning.Built .wrap 1 ∧ returning.WellNumbered ∧
      ((returning.machine (interrupted 65526) fun _ => 16).run returning.builder.ops).1 =
        .error (.liveOutside 0xffffffffffffffff) ∧
      ¬ExactSizes .wrap 1 (interrupted 65526) := by
  have numbered : returning.WellNumbered := ⟨by decide, by decide⟩
  have arrived : Arrives .wrap 1 (.ofConfig smallestRing) compiled :=
    .protocols .start (.prepare .empty ⟨16⟩ .refl)
  obtain ⟨cutOff, left⟩ := run_lateCall_of_spent (by decide : 65526 + 10 = stepBound)
  have refused : ((returning.machine (interrupted 65526) fun _ => 16).run
      returning.builder.ops).1 = .error (.liveOutside 0xffffffffffffffff) := by decide +kernel
  refine ⟨rfl, arrived, built_lateCall _, wellNumbered_lateCall _, cutOff, left, rfl, rfl,
    built_returning, numbered, refused, fun exact => ?_⟩
  cases (exact.block returning _ built_returning numbered).1 _ refused

end TransferCache.Code
