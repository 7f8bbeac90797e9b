import TransferCache.Config.Basic
import TransferCache.Hexadecimal

/-!
# Log events

What a context and an engine report while they run. An event carries what it is about as data; its
level, its message and its named fields are read off it.
-/

namespace TransferCache

inductive Level where
  | error
  | warn
  | debug
  | trace
  deriving DecidableEq, Repr

def Level.name : Level → String
  | .error => "ERROR"
  | .warn => "WARN"
  | .debug => "DEBUG"
  | .trace => "TRACE"

inductive Event where
  | contextCreated (config : Config)
  | contextReset
  | slotsExhausted (capacity : Nat)
  | linkDeferred (guest : GuestAddr) (slot : SlotRef)
  | waiterDropped (guest : GuestAddr) (slot : SlotRef) (capacity : Nat)
  | linksCompleted (block : Block) (linked : Nat)
  | stackOverflowed (capacity : Nat) (policy : OverflowPolicy)
  | stackFlushed
  | popMismatched (actual expected : GuestAddr)
  | popUnresolved (actual : GuestAddr) (slot : SlotRef)
  | popHit (actual : GuestAddr) (host : HostAddr)
  | targetHit (target : GuestAddr) (host : HostAddr)
  | targetMissed (target : GuestAddr)
  | targetReplaced (guest evicted : GuestAddr)
  | blockReplaced (guest : GuestAddr) (old new : HostAddr)
  deriving DecidableEq, Repr

namespace Event

/-- Pops and lookups are traced, lost predictions and waiters are warnings, and only a call site
that cannot be linked is an error. -/
def level : Event → Level
  | .slotsExhausted .. => .error
  | .waiterDropped .. | .stackOverflowed .. => .warn
  | .contextCreated .. | .contextReset | .linkDeferred .. | .linksCompleted .. | .stackFlushed
  | .blockReplaced .. => .debug
  | .popMismatched .. | .popUnresolved .. | .popHit .. | .targetHit .. | .targetMissed ..
  | .targetReplaced .. => .trace

def message : Event → String
  | .contextCreated .. => "execution context created"
  | .contextReset => "execution context reset"
  | .slotsExhausted .. => "shadow slot array exhausted; call site cannot be linked"
  | .linkDeferred .. => "return block not compiled; link deferred"
  | .waiterDropped .. => "deferred link names a slot outside the slot array; dropped"
  | .linksCompleted .. => "deferred links completed"
  | .stackOverflowed .. => "shadow stack overflow; older return predictions dropped"
  | .stackFlushed => "shadow stack flushed"
  | .popMismatched .. => "shadow pop mismatch"
  | .popUnresolved .. => "shadow pop hit unresolved slot"
  | .popHit .. => "shadow pop hit"
  | .targetHit .. => "ibtc hit"
  | .targetMissed .. => "ibtc miss"
  | .targetReplaced .. => "ibtc entry replaced"
  | .blockReplaced .. => "block replaced"

/-- The named fields of an event: addresses in hexadecimal, counts and slot numbers in decimal. -/
def fields : Event → List (String × String)
  | .contextCreated config =>
    [("stack", toString config.stackSize.toNat),
      ("slots", toString config.slotCapacity.toNat),
      ("link_buckets", toString (tableSize config.linkTableBits.toNat)),
      ("ibtc_entries", toString (tableSize config.indexBits.toNat)),
      ("overflow", config.overflow.name)]
  | .contextReset => []
  | .slotsExhausted capacity => [("capacity", toString capacity)]
  | .linkDeferred guest slot => [("guest", guest.text), ("slot", toString slot.index.toNat)]
  | .waiterDropped guest slot capacity =>
    [("guest", guest.text), ("slot", toString slot.index.toNat), ("capacity", toString capacity)]
  | .linksCompleted block linked =>
    [("guest", block.guest.text), ("host", block.host.text), ("linked", toString linked)]
  | .stackOverflowed capacity policy =>
    [("capacity", toString capacity), ("policy", policy.name)]
  | .stackFlushed => []
  | .popMismatched actual expected => [("actual", actual.text), ("expected", expected.text)]
  | .popUnresolved actual slot => [("actual", actual.text), ("slot", toString slot.index.toNat)]
  | .popHit actual host => [("actual", actual.text), ("host", host.text)]
  | .targetHit target host => [("target", target.text), ("host", host.text)]
  | .targetMissed target => [("target", target.text)]
  | .targetReplaced guest evicted => [("guest", guest.text), ("evicted", evicted.text)]
  | .blockReplaced guest old new =>
    [("guest", guest.text), ("old", old.text), ("new", new.text)]

end Event

end TransferCache
