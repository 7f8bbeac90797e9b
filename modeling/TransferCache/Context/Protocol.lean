import TransferCache.Context.Basic
import TransferCache.Registry

/-!
# The cache protocols

What a context does when a call site is compiled, when a call, a return or an indirect jump runs,
and when a block is registered.

* A call site gets a slot. The slot is filled at once if the return block exists; otherwise it
  waits.
* A call pushes its site's frame; a return pops the top frame if that expects the actual address.
* A registered block fills every slot that waits for it.
* A jump looks its target up; after a miss the dispatcher resolves the target and stores the block.
-/

namespace TransferCache.Context

/-! ## Call sites -/

/-- Gives the call site that returns to `ret` its slot and links it, now or later. Without a slot
left nothing is linked or deferred. -/
def prepare (ctx : Context) (registry : Registry) (ret : GuestAddr) :
    Outcome Context (Except SlotsExhausted CallSite) :=
  match ctx.slots.alloc with
  | .error fault => ⟨.error fault, ctx, [.slotsExhausted fault.capacity]⟩
  | .ok (slot, slots) =>
    match registry.lookup ret with
    | some block =>
      { value := .ok ⟨ret, slot, slots.holds slot⟩
        state :=
          { ctx with
            slots := slots.resolve slot block.host
            stats :=
              { ctx.stats with
                callSites := ctx.stats.callSites + 1
                linksImmediate := ctx.stats.linksImmediate + 1 } } }
    | none =>
      { value := .ok ⟨ret, slot, false⟩
        state :=
          { ctx with
            slots := slots
            links := ctx.links.defer ret slot
            stats :=
              { ctx.stats with
                callSites := ctx.stats.callSites + 1
                linksDeferred := ctx.stats.linksDeferred + 1 } }
        events := [.linkDeferred ret slot] }

/-! ## The shadow stack -/

/-- Accounts for a push that discarded a live frame. -/
def noteOverflow (ctx : Context) : Outcome Context Unit where
  value := ()
  state :=
    { ctx with
      stats := { ctx.stats with shadowOverflows := ctx.stats.shadowOverflows + 1 } }
  events := [.stackOverflowed ctx.shadow.capacity ctx.shadow.policy]

/-- Runs a call from the given site. -/
def push (ctx : Context) (site : CallSite) : Outcome Context Unit :=
  let (shadow, overflowed) := ctx.shadow.push ⟨site.ret, site.slot⟩
  let pushed :=
    { ctx with
      shadow
      stats := { ctx.stats with shadowPushes := ctx.stats.shadowPushes + 1 } }
  if overflowed then pushed.noteOverflow else ⟨(), pushed, []⟩

/-- Runs a return to `actual`. A frame that expects another address stays where it is; a frame that
matches is popped whether or not its slot is filled. -/
def pop (ctx : Context) (actual : GuestAddr) : Outcome Context Prediction :=
  let frame := ctx.shadow.peek
  if ctx.shadow.isEmpty ∨ frame.expected ≠ actual then
    { value := .mismatch
      state :=
        { ctx with
          stats := { ctx.stats with shadowMismatches := ctx.stats.shadowMismatches + 1 } }
      events := ctx.traced (.popMismatched actual frame.expected) }
  else
    let host := ctx.slots.value frame.slot
    if host.isUnresolved then
      { value := .unresolved
        state :=
          { ctx with
            shadow := ctx.shadow.pop
            stats := { ctx.stats with shadowUnresolved := ctx.stats.shadowUnresolved + 1 } }
        events := ctx.traced (.popUnresolved actual frame.slot) }
    else
      { value := .hit host
        state :=
          { ctx with
            shadow := ctx.shadow.pop
            stats := { ctx.stats with shadowHits := ctx.stats.shadowHits + 1 } }
        events := ctx.traced (.popHit actual host) }

/-- Empties the shadow stack. Waiting links stay. -/
def flushStack (ctx : Context) : Outcome Context Unit where
  value := ()
  state :=
    { ctx with
      shadow := ctx.shadow.flush
      stats := { ctx.stats with shadowFlushes := ctx.stats.shadowFlushes + 1 } }
  events := [.stackFlushed]

/-! ## Registered blocks -/

/-- Fills every slot that waits for a block that has just been registered, and tells how many there
were. A reference outside the slot array waits no longer, but is not counted. -/
def completeLinks (ctx : Context) (block : Block) : Outcome Context Nat :=
  let (released, links) := ctx.links.complete block.guest
  let (filled, dropped) := released.partition ctx.slots.holds
  let linked := filled.length
  { value := linked
    state :=
      { ctx with
        slots := ctx.slots.resolveAll filled block.host
        links
        stats := { ctx.stats with linksCompleted := ctx.stats.linksCompleted + linked } }
    events :=
      dropped.map (Event.waiterDropped block.guest · ctx.slots.capacity) ++
        if linked = 0 then [] else [.linksCompleted block linked] }

/-! ## Jump targets -/

/-- Looks a jump target up. A miss yields the stub and leaves an update pending. -/
def lookupTarget (ctx : Context) (target : GuestAddr) : Outcome Context HostAddr :=
  match ctx.targets.lookup target with
  | some host =>
    { value := host
      state :=
        { ctx with stats := { ctx.stats with targetHits := ctx.stats.targetHits + 1 } }
      events := ctx.traced (.targetHit target host) }
  | none =>
    { value := ctx.stub
      state :=
        { ctx with
          updatePending := true
          stats := { ctx.stats with targetMisses := ctx.stats.targetMisses + 1 } }
      events := ctx.traced (.targetMissed target) }

/-- Stores the block that the dispatcher found for a missed target. -/
def updateTarget (ctx : Context) (block : Block) : Outcome Context Unit :=
  let displaced := ctx.targets.displacedBy block
  { value := ()
    state :=
      { ctx with
        targets := ctx.targets.update block
        updatePending := false
        stats :=
          { ctx.stats with
            targetUpdates := ctx.stats.targetUpdates + 1
            targetEvictions := ctx.stats.targetEvictions + if displaced.isSome then 1 else 0 } }
    events :=
      match displaced with
      | some evicted => ctx.traced (.targetReplaced block.guest evicted.guest)
      | none => [] }

/-! ## The end of all compiled code -/

/-- Clears every cache. Counters and stub stay. Compiled code refers to slots by number, so this
goes with discarding all of it. -/
def reset (ctx : Context) : Outcome Context Unit where
  value := ()
  state :=
    { ctx with
      shadow := ctx.shadow.flush
      slots := ctx.slots.clear
      links := ctx.links.clear
      targets := ctx.targets.clear
      updatePending := false }
  events := [.contextReset]

end TransferCache.Context
