import TransferCache.Stats.Basic
import TransferCache.Decimal

/-!
# The statistics report

The report has three sections, always written in the same order. A request names the sections it
wants, once or more often and in any order; a request that names nothing asks for all of them, and
unknown names ask for nothing.
-/

namespace TransferCache.Stats

/-- A section of the report. -/
inductive Section where
  | summary
  | shadow
  | ibtc
  deriving DecidableEq, Repr

def Section.name : Section → String
  | .summary => "summary"
  | .shadow => "shadow"
  | .ibtc => "ibtc"

/-- The sections in the order they are written. -/
def sections : List Section := [.summary, .shadow, .ibtc]

/-- Percentages have two decimal places. -/
def percentPlaces : Nat := 2

/-- A count with the percentage that it is of its whole. -/
def shareText (count : Nat) (rate : Float) : String :=
  s!"{count} ({fixedText percentPlaces (rate * 100.0)}%)"

def doubleRule : String := "=========================================================="

def singleRule : String := "----------------------------------------------------------"

/-- The lines of a section. -/
def Section.lines (stats : Stats) : Section → List String
  | .summary =>
    ["",
      doubleRule,
      "CONTROL-TRANSFER CACHE STATISTICS",
      doubleRule,
      s!"call_sites               {stats.callSites}",
      s!"links.immediate          {stats.linksImmediate}",
      s!"links.deferred           {stats.linksDeferred}",
      s!"links.completed          {stats.linksCompleted}",
      singleRule]
  | .shadow =>
    ["SHADOW STACK",
      s!"  pushes                 {stats.shadowPushes}",
      s!"  overflows              {stats.shadowOverflows}",
      s!"  flushes                {stats.shadowFlushes}",
      s!"  pops                   {stats.shadowPops}",
      s!"  pops.hit               {shareText stats.shadowHits stats.shadowHitRate}",
      s!"  pops.mismatch          {stats.shadowMismatches}",
      s!"  pops.unresolved        {stats.shadowUnresolved}",
      singleRule]
  | .ibtc =>
    ["IBTC",
      s!"  lookups                {stats.targetLookups}",
      s!"  hits                   {shareText stats.targetHits stats.targetHitRate}",
      s!"  misses                 {stats.targetMisses}",
      s!"  updates                {stats.targetUpdates}",
      s!"  evictions              {stats.targetEvictions}",
      doubleRule]

/-- The sections that a request asks for. -/
def requested (names : List String) : List Section :=
  if names = [] then sections else sections.filter fun part => part.name ∈ names

/-- The text of the requested sections, every line ended. -/
def render (stats : Stats) (names : List String) : String :=
  String.join (((requested names).flatMap (Section.lines stats)).map (· ++ "\n"))

end TransferCache.Stats
