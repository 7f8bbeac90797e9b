import TransferCache.Proofs.Code.Popping

/-!
# Protocols performed in a row

What a block of emitted operations stands for: pushes, pops, flushes and lookups performed directly
on a context, one after another, up to the first that leads to host code. None of them changes the
policy or the capacity of the stack, or leaves it ill formed (`Shaped.directly`).
-/

namespace TransferCache.Code

/-! ## Direct protocols -/

/-- What one part of a block stands for. A pop or a lookup reads its address from a register. -/
inductive DirectCall where
  | push (site : CallSite)
  | pop (actual : Temp)
  | flush
  | lookup (target : Temp)

/-- Performs a protocol; the host code, if there is any, is where it leads. -/
def DirectCall.perform (word : Temp → UInt64) : DirectCall → Context → Option HostAddr × Context
  | .push site, ctx => (none, (ctx.push site).state)
  | .pop actual, ctx =>
    let popped := ctx.pop ⟨word actual⟩
    (popped.value.target?, popped.state)
  | .flush, ctx => (none, ctx.flushStack.state)
  | .lookup target, ctx =>
    let looked := ctx.lookupTarget ⟨word target⟩
    (some looked.value, looked.state)

/-- Performs protocols in order and stops at the first one that leads somewhere. -/
def directly (word : Temp → UInt64) : List DirectCall → Context → Exit × Context
  | [], ctx => (.fallThrough, ctx)
  | call :: calls, ctx =>
    match call.perform word ctx with
    | (some host, after) => (.leave host, after)
    | (none, after) => directly word calls after

theorem directly_cons_of_none {word : Temp → UInt64} {call : DirectCall} {ctx after : Context}
    (goesOn : call.perform word ctx = (none, after)) (calls : List DirectCall) :
    directly word (call :: calls) ctx = directly word calls after := by
  rw [directly, goesOn]

theorem directly_cons_of_some {word : Temp → UInt64} {call : DirectCall} {ctx after : Context}
    {host : HostAddr} (leads : call.perform word ctx = (some host, after))
    (calls : List DirectCall) :
    directly word (call :: calls) ctx = (.leave host, after) := by
  rw [directly, leads]

theorem directly_append (word : Temp → UInt64) (calls more : List DirectCall) (ctx : Context) :
    directly word (calls ++ more) ctx =
      match directly word calls ctx with
      | (.leave host, after) => (.leave host, after)
      | (.fallThrough, after) => directly word more after := by
  induction calls generalizing ctx with
  | nil => rfl
  | cons call calls ih =>
    rw [List.cons_append]
    rcases performed : call.perform word ctx with ⟨_ | host, after⟩
    · rw [directly_cons_of_none performed, directly_cons_of_none performed]
      exact ih after
    · rw [directly_cons_of_some performed, directly_cons_of_some performed]

theorem directly_singleton (word : Temp → UInt64) (call : DirectCall) (ctx : Context) :
    directly word [call] ctx =
      (.ofTarget? (call.perform word ctx).1, (call.perform word ctx).2) := by
  rcases performed : call.perform word ctx with ⟨_ | host, after⟩
  · rw [directly_cons_of_none performed]
    rfl
  · rw [directly_cons_of_some performed]
    rfl

/-! ## Shapes of contexts -/

/-- The stack has the given policy and capacity, is well formed, and is indexed by words. -/
structure Shaped (policy : OverflowPolicy) (capacity : Nat) (ctx : Context) : Prop where
  fits : Addressable ctx.shadow
  policy_eq : ctx.shadow.policy = policy
  capacity_eq : ctx.shadow.capacity = capacity

variable {policy : OverflowPolicy} {capacity : Nat} {ctx : Context}

/-- Only the stack matters for the shape. -/
theorem Shaped.of_shadow_eq (shaped : Shaped policy capacity ctx) {other : Context}
    (same : other.shadow = ctx.shadow) : Shaped policy capacity other := by
  obtain ⟨fits, policyEq, capacityEq⟩ := shaped
  exact ⟨same ▸ fits, same ▸ policyEq, same ▸ capacityEq⟩

/-- A well-formed stack of the same capacity and policy has the same shape. -/
theorem Shaped.withShadow (shaped : Shaped policy capacity ctx) {other : Context}
    (wf : other.shadow.WellFormed) (samePolicy : other.shadow.policy = ctx.shadow.policy)
    (sameCapacity : other.shadow.capacity = ctx.shadow.capacity) :
    Shaped policy capacity other := by
  refine ⟨⟨wf, ?_⟩, samePolicy.trans shaped.policy_eq, sameCapacity.trans shaped.capacity_eq⟩
  have limit := shaped.fits.limit_lt
  rwa [wf.limit_eq, sameCapacity, ← shaped.fits.wf.limit_eq]

theorem Shaped.push (shaped : Shaped policy capacity ctx) (site : CallSite) :
    Shaped policy capacity (ctx.push site).state := by
  have shadow : (ctx.push site).state.shadow = (ctx.shadow.push site.frame).1 := by
    rw [Context.state_push]
  apply shaped.withShadow
  · rw [shadow]
    exact shaped.fits.wf.push site.frame
  · rw [shadow, ShadowStack.policy_push]
  · rw [shadow, ShadowStack.capacity_push]

theorem Shaped.flushStack (shaped : Shaped policy capacity ctx) :
    Shaped policy capacity ctx.flushStack.state :=
  shaped.withShadow shaped.fits.wf.flush rfl rfl

theorem Shaped.reset (shaped : Shaped policy capacity ctx) :
    Shaped policy capacity ctx.reset.state :=
  shaped.withShadow shaped.fits.wf.flush rfl rfl

theorem Shaped.of_popped (shaped : Shaped policy capacity ctx) {other : Context}
    (popped : other.shadow = ctx.shadow.pop) : Shaped policy capacity other := by
  apply shaped.withShadow
  · rw [popped]
    exact shaped.fits.wf.pop
  · rw [popped, ShadowStack.policy_pop]
  · rw [popped, ShadowStack.capacity_pop]

theorem Shaped.pop (shaped : Shaped policy capacity ctx) (actual : GuestAddr) :
    Shaped policy capacity (ctx.pop actual).state := by
  rcases Context.pop_cases shaped.fits.wf actual with
    ⟨-, -, state⟩ | ⟨_, -, -, -, -, -, state⟩ | ⟨_, -, -, -, -, -, state⟩
  · exact shaped.of_shadow_eq (by rw [state])
  · exact shaped.of_popped (by rw [state])
  · exact shaped.of_popped (by rw [state])

theorem Shaped.lookupTarget (shaped : Shaped policy capacity ctx) (target : GuestAddr) :
    Shaped policy capacity (ctx.lookupTarget target).state := by
  apply shaped.of_shadow_eq
  rcases ctx.lookupTarget_cases target with ⟨_, -, -, state⟩ | ⟨-, -, state⟩
  · rw [state]
  · rw [state]

theorem Shaped.prepare (shaped : Shaped policy capacity ctx) (registry : Registry)
    (ret : GuestAddr) : Shaped policy capacity (ctx.prepare registry ret).state := by
  apply shaped.of_shadow_eq
  rcases ctx.prepare_cases registry ret with
    ⟨-, -, state⟩ | ⟨-, _, _, -, -, state⟩ | ⟨-, -, -, state⟩
  · rw [state]
  · rw [state]
  · rw [state]

theorem Shaped.perform (shaped : Shaped policy capacity ctx) (word : Temp → UInt64)
    (call : DirectCall) : Shaped policy capacity (call.perform word ctx).2 := by
  cases call with
  | push site => exact shaped.push site
  | pop actual => exact shaped.pop ⟨word actual⟩
  | flush => exact shaped.flushStack
  | lookup target => exact shaped.lookupTarget ⟨word target⟩

theorem Shaped.directly (shaped : Shaped policy capacity ctx) (word : Temp → UInt64)
    (calls : List DirectCall) : Shaped policy capacity (directly word calls ctx).2 := by
  induction calls generalizing ctx with
  | nil => exact shaped
  | cons call calls ih =>
    have shapedAfter := shaped.perform word call
    rcases performed : call.perform word ctx with ⟨_ | host, after⟩
    · rw [performed] at shapedAfter
      rw [directly_cons_of_none performed]
      exact ih shapedAfter
    · rw [performed] at shapedAfter
      rw [directly_cons_of_some performed]
      exact shapedAfter

end TransferCache.Code
