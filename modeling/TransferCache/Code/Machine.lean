import TransferCache.Code.Labels
import TransferCache.Context.Protocol

/-!
# Running operations

A machine runs an operation list on a context and a file of registers, one operation after another,
until it leaves, falls off the end, or meets a fault. An operation that faults changes nothing, so
the machine keeps what the operations before it did. Counters of the context change only through the
helpers that operations call.
-/

namespace TransferCache.Code

/-- How an operation list was left. -/
inductive Exit where
  /-- For a host address. -/
  | leave (host : HostAddr)
  /-- Off the end, into the slow path. -/
  | fallThrough
  deriving DecidableEq, Repr

def Exit.target? : Exit → Option HostAddr
  | .leave host => some host
  | .fallThrough => none

/-- Where control goes after an operation. -/
inductive Flow where
  | next
  | jump (position : Nat)
  | leave (host : HostAddr)
  deriving DecidableEq, Repr

/-- A context with a file of registers and the events logged so far. -/
structure Machine where
  ctx : Context
  temps : Numbered UInt64
  log : Array Event
  deriving DecidableEq, Repr

namespace Machine

/-- A machine whose registers are all unset. -/
def ofContext (ctx : Context) : Machine := ⟨ctx, .empty, #[]⟩

def temp? (machine : Machine) (temp : Temp) : Option UInt64 :=
  machine.temps.find? temp.number.toNat

/-- Writes a register. -/
def bind (machine : Machine) (temp : Temp) (word : UInt64) : Machine :=
  { machine with temps := machine.temps.set temp.number.toNat word }

def read (machine : Machine) (temp : Temp) : Except Fault UInt64 :=
  match machine.temp? temp with
  | some word => .ok word
  | none => .error (.unsetTemp temp)

def operand (machine : Machine) : Operand → Except Fault UInt64
  | .temp source => machine.read source
  | .constant word => .ok word

/-! ## The shadow stack as words -/

/-- Changes the shadow stack of the context. -/
def mapShadow (machine : Machine) (change : ShadowStack → ShadowStack) : Machine :=
  { machine with ctx := { machine.ctx with shadow := change machine.ctx.shadow } }

def loadField (shadow : ShadowStack) : StackField → UInt64
  | .top => shadow.top.toUInt64
  | .limit => shadow.limit.toUInt64
  | .live => shadow.live.toUInt64

def storeField (shadow : ShadowStack) (field : StackField) (word : UInt64) :
    Except Fault ShadowStack :=
  match field with
  | .top =>
    match shadow.setTop? word.toNat with
    | some moved => .ok moved
    | none => .error (.topOutside word)
  | .live =>
    match shadow.setLive? word.toNat with
    | some counted => .ok counted
    | none => .error (.liveOutside word)
  | .limit => .error .limitStored

/-- The frame at an index of the stack. -/
def frameAt (shadow : ShadowStack) (index : UInt64) : Except Fault Frame :=
  match shadow.frameAt? index.toNat with
  | some frame => .ok frame
  | none => .error (.frameOutside index)

def loadPart (frame : Frame) : FramePart → UInt64
  | .expected => frame.expected.word
  | .slot => frame.slot.index

def storePart (frame : Frame) (part : FramePart) (word : UInt64) : Frame :=
  match part with
  | .expected => { frame with expected := ⟨word⟩ }
  | .slot => { frame with slot := ⟨word⟩ }

/-! ## Helpers -/

/-- Lets the context perform an operation and logs its events. -/
def perform {α : Type} (machine : Machine) (operation : Context → Outcome Context α) :
    α × Machine :=
  let outcome := operation machine.ctx
  (outcome.value, { machine with ctx := outcome.state, log := machine.log ++ outcome.events })

/-- Calls a helper. Only a lookup has an argument and a result; any other helper ignores both. -/
def call (machine : Machine) (helper : Helper) (arg dst : Option Temp) : Except Fault Machine :=
  match helper with
  | .lookupTarget =>
    match arg with
    | none => .error .targetMissing
    | some source => do
      let target ← machine.read source
      let (host, after) := machine.perform (·.lookupTarget ⟨target⟩)
      match dst with
      | some temp => return after.bind temp host.word
      | none => return after
  | .flushStack => .ok (machine.perform Context.flushStack).2
  | .noteOverflow => .ok (machine.perform Context.noteOverflow).2

/-! ## Execution -/

/-- Executes one operation. -/
def step (labels : Labels) (machine : Machine) : Op → Except Fault (Flow × Machine)
  | .loadField dst field => .ok (.next, machine.bind dst (loadField machine.ctx.shadow field))
  | .storeField field src => do
    let word ← machine.read src
    let shadow ← storeField machine.ctx.shadow field word
    return (.next, machine.mapShadow fun _ => shadow)
  | .loadEntry dst index part => do
    let position ← machine.read index
    let frame ← frameAt machine.ctx.shadow position
    return (.next, machine.bind dst (loadPart frame part))
  | .storeEntry index part value => do
    let position ← machine.read index
    let word ← machine.operand value
    let frame ← frameAt machine.ctx.shadow position
    let changed := storePart frame part word
    return (.next, machine.mapShadow (·.setEntry position.toNat changed))
  | .loadSlot dst slot => do
    let number ← machine.read slot
    return (.next, machine.bind dst (machine.ctx.slots.value ⟨number⟩).word)
  | .setConstant dst word => .ok (.next, machine.bind dst word)
  | .addConstant dst src addend => do
    let word ← machine.read src
    return (.next, machine.bind dst (word + addend.toUInt64))
  | .branch condition lhs rhs target => do
    let left ← machine.read lhs
    let right ← machine.operand rhs
    if condition.holds left right then return (.jump (← labels.position target), machine)
    else return (.next, machine)
  | .label _ => .ok (.next, machine)
  | .call helper arg dst => do return (.next, ← machine.call helper arg dst)
  | .leave target => do return (.leave ⟨← machine.read target⟩, machine)

/-- Runs from a position on, with a budget of operations. Falling off the end needs no budget. -/
def runFrom (ops : Array Op) (labels : Labels) :
    Nat → Nat → Machine → Except Fault Exit × Machine
  | budget, position, machine =>
    match ops[position]? with
    | none => (.ok .fallThrough, machine)
    | some op =>
      match budget with
      | 0 => (.error .noExit, machine)
      | budget + 1 =>
        match machine.step labels op with
        | .error fault => (.error fault, machine)
        | .ok (.next, after) => runFrom ops labels budget (position + 1) after
        | .ok (.jump target, after) => runFrom ops labels budget target after
        | .ok (.leave host, after) => (.ok (.leave host), after)

/-- Runs an operation list from its first operation. A list that places a label twice is refused
before anything happens. -/
def run (machine : Machine) (ops : Array Op) : Except Fault Exit × Machine :=
  match Labels.ofOps ops with
  | .error fault => (.error fault, machine)
  | .ok labels => runFrom ops labels stepBound 0 machine

end Machine

end TransferCache.Code
