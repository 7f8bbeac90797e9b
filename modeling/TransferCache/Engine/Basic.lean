import TransferCache.Context.Protocol

/-!
# Engines

An engine drives one processor: it owns the registry of compiled blocks, the context with its
caches, the compiled call sites, and a compiler. Each control transfer first asks a cache; only if
that does not know the target does the slow path look in the registry and, last of all, compile.
-/

namespace TransferCache

/-- Compiles the block at a guest address, or declines it. The compiler may keep state of its own.
-/
abbrev Compile (κ : Type) := κ → GuestAddr → Option HostAddr × κ

/-- There is no block for a guest address, and the compiler declined it. -/
structure UnknownBlock where
  guest : GuestAddr
  deriving DecidableEq, Repr

def UnknownBlock.message (fault : UnknownBlock) : String :=
  "no translation block for guest address " ++ fault.guest.text

/-- Where a control transfer goes, and who knew. -/
inductive Transfer where
  /-- A cache supplied the target. -/
  | predicted (host : HostAddr)
  /-- The slow path resolved the target. -/
  | resolved (host : HostAddr)
  deriving DecidableEq, Repr

def Transfer.host : Transfer → HostAddr
  | .predicted host | .resolved host => host

def Transfer.isPredicted : Transfer → Bool
  | .predicted _ => true
  | .resolved _ => false

structure Engine (κ : Type) where
  registry : Registry
  ctx : Context
  /-- Compiled call sites by the guest address of the call. -/
  callSites : AddressMap CallSite
  /-- The state of the compiler. -/
  compiler : κ
  deriving DecidableEq, Repr

namespace Engine

variable {κ : Type}

/-- Builds an engine without any block, if its context can be built. -/
def create (config : Config) (compiler : κ) : Except CreationFault (Outcome (Engine κ) Unit) :=
  match Context.create config with
  | .error fault => .error fault
  | .ok made => .ok (made.within fun ctx => ⟨.empty, ctx, .empty, compiler⟩)

def withContext (engine : Engine κ) (ctx : Context) : Engine κ := { engine with ctx }

/-! ## Blocks -/

/-- Registers a block and fills the slots that wait for it; tells how many there were. -/
def register (engine : Engine κ) (block : Block) : Outcome (Engine κ) Nat :=
  let completed := engine.ctx.completeLinks block
  let replacement :=
    match engine.registry.lookup block.guest with
    | some old => [Event.blockReplaced block.guest old.host block.host]
    | none => []
  { value := completed.value
    state := { engine with registry := engine.registry.insert block, ctx := completed.state }
    events := replacement ++ completed.events }

/-- The slow path: finds the block for a guest address, or compiles and registers it. -/
def resolve (compile : Compile κ) (engine : Engine κ) (guest : GuestAddr) :
    Outcome (Engine κ) (Except UnknownBlock Block) :=
  match engine.registry.lookup guest with
  | some block => ⟨.ok block, engine, []⟩
  | none =>
    let (compiled, compiler) := compile engine.compiler guest
    let asked := { engine with compiler }
    match compiled with
    | none => ⟨.error ⟨guest⟩, asked, []⟩
    | some host => (asked.register ⟨guest, host⟩).map fun _ => .ok ⟨guest, host⟩

/-! ## Control transfers -/

/-- Pushes the frame of a compiled call site. -/
def runCall (engine : Engine κ) (site : CallSite) :
    Outcome (Engine κ) (Except SlotsExhausted CallSite) :=
  ((engine.ctx.push site).within engine.withContext).map fun _ => .ok site

/-- Runs the call at guest address `site` that returns to `ret`. Its first run compiles it. -/
def call (engine : Engine κ) (site ret : GuestAddr) :
    Outcome (Engine κ) (Except SlotsExhausted CallSite) :=
  match engine.callSites.find? site with
  | some known => engine.runCall known
  | none =>
    ((engine.ctx.prepare engine.registry ret).within engine.withContext).andThen
      fun prepared engine =>
        match prepared with
        | .error fault => ⟨.error fault, engine, []⟩
        | .ok fresh =>
          { engine with callSites := engine.callSites.insert site fresh }.runCall fresh

/-- Runs a return whose actual guest target is `actual`. -/
def ret (compile : Compile κ) (engine : Engine κ) (actual : GuestAddr) :
    Outcome (Engine κ) (Except UnknownBlock Transfer) :=
  ((engine.ctx.pop actual).within engine.withContext).andThen fun prediction engine =>
    match prediction.target? with
    | some host => ⟨.ok (.predicted host), engine, []⟩
    | none => (resolve compile engine actual).map (·.map fun block => .resolved block.host)

/-- Runs an indirect jump to `target`. The slow path runs whenever an update is pending after the
lookup, and a resolved block answers it. -/
def jump (compile : Compile κ) (engine : Engine κ) (target : GuestAddr) :
    Outcome (Engine κ) (Except UnknownBlock Transfer) :=
  ((engine.ctx.lookupTarget target).within engine.withContext).andThen fun host engine =>
    if engine.ctx.updatePending then
      (resolve compile engine target).andThen fun found engine =>
        match found with
        | .error fault => ⟨.error fault, engine, []⟩
        | .ok block =>
          ((engine.ctx.updateTarget block).within engine.withContext).map fun _ =>
            .ok (.resolved block.host)
    else ⟨.ok (.predicted host), engine, []⟩

/-! ## Flushes -/

/-- Empties the shadow stack. -/
def flushStack (engine : Engine κ) : Outcome (Engine κ) Unit :=
  engine.ctx.flushStack.within engine.withContext

/-- Discards every block, call site and cache entry. -/
def flushCode (engine : Engine κ) : Outcome (Engine κ) Unit :=
  engine.ctx.reset.within fun ctx => { engine with registry := .empty, ctx, callSites := .empty }

end Engine

end TransferCache
