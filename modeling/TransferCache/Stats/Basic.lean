/-!
# Counters

How often each protocol of a context ran and how it went. Counters only grow; they survive a reset
of the caches they describe. They are unbounded here: a counter kept in 64 bits agrees with them for
as long as fewer than `2 ^ 64` events of its kind have been counted.
-/

namespace TransferCache

/-- The counters, without an upper bound. -/
structure Stats where
  /-- Call sites compiled, one slot each. -/
  callSites : Nat := 0
  /-- Call sites whose return block already existed. -/
  linksImmediate : Nat := 0
  /-- Call sites whose slot had to wait. -/
  linksDeferred : Nat := 0
  /-- Waiting slots that were filled. -/
  linksCompleted : Nat := 0
  shadowPushes : Nat := 0
  /-- Pushes that discarded a live frame. -/
  shadowOverflows : Nat := 0
  shadowFlushes : Nat := 0
  /-- Pops that went straight to host code. -/
  shadowHits : Nat := 0
  /-- Pops whose actual address was not the expected one. -/
  shadowMismatches : Nat := 0
  /-- Pops that matched a frame whose slot was still unresolved. -/
  shadowUnresolved : Nat := 0
  targetHits : Nat := 0
  targetMisses : Nat := 0
  targetUpdates : Nat := 0
  /-- Updates that displaced a block for another guest address. -/
  targetEvictions : Nat := 0
  deriving DecidableEq, Repr

namespace Stats

/-- Every pop is a hit, a mismatch or unresolved. -/
def shadowPops (stats : Stats) : Nat :=
  stats.shadowHits + stats.shadowMismatches + stats.shadowUnresolved

/-- Every lookup is a hit or a miss. -/
def targetLookups (stats : Stats) : Nat := stats.targetHits + stats.targetMisses

/-- A part of a whole as a double-precision fraction, which is zero of an empty whole. -/
def rate (part whole : Nat) : Float :=
  if whole = 0 then 0.0 else part.toUInt64.toFloat / whole.toUInt64.toFloat

/-- The fraction of pops that went straight to host code. -/
def shadowHitRate (stats : Stats) : Float := rate stats.shadowHits stats.shadowPops

/-- The fraction of lookups that hit. -/
def targetHitRate (stats : Stats) : Float := rate stats.targetHits stats.targetLookups

end Stats

end TransferCache
