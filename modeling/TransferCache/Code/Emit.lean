import TransferCache.Code.Builder
import TransferCache.Context.Protocol

/-!
# Protocols as operations

Each function here appends the runtime half of one cache protocol to a block. What can be done when
the block is compiled, giving a call site its slot and linking it, is done at once; the operations
do the rest each time the block runs. All branches lead forward, and nothing is written to a
register that an earlier part of the block has been given.
-/

namespace TransferCache.Code

/-! ## Pushing -/

/-- Steps past the top frame; `inRange` is reached with the next index unless that is the limit. -/
def advanceOps (top limit : Temp) (inRange : Label) : List Op :=
  [.loadField top .top,
    .loadField limit .limit,
    .addConstant top top 1,
    .branch .lt top (.temp limit) inRange]

/-- Starts again just past the base, which loses every frame. -/
def restartOps (top : Temp) (inRange : Label) : List Op :=
  [.call .noteOverflow none none,
    .setConstant top 1,
    .label inRange]

/-- Wraps around to just past the base and counts the new frame; only a push on a full ring loses
one, and then the count stays at the capacity. -/
def ringPushOps (capacity : Nat) (top live : Temp) (inRange notFull : Label) : List Op :=
  [.setConstant top 1,
    .label inRange,
    .loadField live .live,
    .branch .lt live (.constant capacity.toUInt64) notFull,
    .call .noteOverflow none none,
    .setConstant live (capacity - 1).toUInt64,
    .label notFull,
    .addConstant live live 1]

/-- Stores the frame of a call site at the new top. -/
def storeFrameOps (top : Temp) (site : CallSite) : List Op :=
  [.storeEntry top .expected (.constant site.ret.word),
    .storeEntry top .slot (.constant site.slot.index),
    .storeField .top top]

namespace Builder

/-- Appends what a call from `site` does to a shadow stack of the given policy and capacity. -/
def appendPush (builder : Builder) (policy : OverflowPolicy) (capacity : Nat) (site : CallSite) :
    Builder :=
  let top := builder.freshTemp 0
  let limit := builder.freshTemp 1
  let inRange := builder.freshLabel 0
  match policy with
  | .reset =>
    builder.extend 2 1
      (advanceOps top limit inRange ++ restartOps top inRange ++ storeFrameOps top site)
  | .wrap =>
    let live := builder.freshTemp 2
    let notFull := builder.freshLabel 1
    builder.extend 3 2
      (advanceOps top limit inRange ++ ringPushOps capacity top live inRange notFull ++
        storeFrameOps top site ++ [.storeField .live live])

/-- Prepares the call site that returns to `ret` and appends what a call from it does. Without a
slot left nothing is appended. -/
def emitPush (builder : Builder) (ctx : Context) (registry : Registry) (ret : GuestAddr) :
    Outcome (Context × Builder) (Except SlotsExhausted CallSite) :=
  let prepared := ctx.prepare registry ret
  prepared.within fun after =>
    match prepared.value with
    | .error _ => (after, builder)
    | .ok site => (after, builder.appendPush ctx.shadow.policy ctx.shadow.capacity site)

end Builder

/-! ## Popping -/

/-- Goes to `miss` unless the top frame expects the address in `actual`. -/
def matchOps (actual top expected : Temp) (miss : Label) : List Op :=
  [.loadField top .top,
    .branch .eq top (.constant 0) miss,
    .loadEntry expected top .expected,
    .branch .ne actual (.temp expected) miss]

/-- Loads the host code for the top frame and steps below that frame. -/
def takeFrameOps (top slot host : Temp) : List Op :=
  [.loadEntry slot top .slot,
    .loadSlot host slot,
    .addConstant top top (-1)]

/-- Wraps from the base around to the last index, but stops on the base once no frame is left. -/
def ringPopOps (capacity : Nat) (top live : Temp) (stepped stored : Label) : List Op :=
  [.loadField live .live,
    .addConstant live live (-1),
    .branch .ne top (.constant 0) stepped,
    .setConstant top capacity.toUInt64,
    .label stepped,
    .branch .ne live (.constant 0) stored,
    .setConstant top 0,
    .label stored,
    .storeField .top top,
    .storeField .live live]

/-- Leaves for the host code, or falls out of the sequence if there is none. -/
def leaveOps (host : Temp) (miss : Label) : List Op :=
  [.branch .eq host (.constant HostAddr.unresolved.word) miss,
    .leave host,
    .label miss]

namespace Builder

/-- Appends what a return does whose actual address is in a register. Only a confirmed prediction
with a filled slot leaves; everything else falls out of the sequence into the slow path. -/
def emitPop (builder : Builder) (ctx : Context) (actual : Temp) : Builder :=
  let top := builder.freshTemp 0
  let expected := builder.freshTemp 1
  let slot := builder.freshTemp 2
  let host := builder.freshTemp 3
  let miss := builder.freshLabel 0
  match ctx.shadow.policy with
  | .reset =>
    builder.extend 4 1
      (matchOps actual top expected miss ++ takeFrameOps top slot host ++
        [.storeField .top top] ++ leaveOps host miss)
  | .wrap =>
    let live := builder.freshTemp 4
    let stepped := builder.freshLabel 1
    let stored := builder.freshLabel 2
    builder.extend 5 3
      (matchOps actual top expected miss ++ takeFrameOps top slot host ++
        ringPopOps ctx.shadow.capacity top live stepped stored ++ leaveOps host miss)

/-! ## Jumping and flushing -/

/-- Appends what an indirect jump does whose guest target is in a register. It always leaves, for
the cached code or for the stub. -/
def emitLookup (builder : Builder) (target : Temp) : Builder :=
  let host := builder.freshTemp 0
  builder.extend 1 0 [.call .lookupTarget (some target) (some host), .leave host]

/-- Appends a flush of the shadow stack. -/
def emitFlush (builder : Builder) : Builder :=
  builder.extend 0 0 [.call .flushStack none none]

end Builder

end TransferCache.Code
