import TransferCache.Config.Basic
import TransferCache.Document.Record

/-!
# Configurations from documents

A configuration document is a record of three sections, `general`, `shadow` and `ibtc`, each itself
a record. `Config.ofText` reads a whole document and then checks the ranges of what it says.
-/

namespace TransferCache

open Document

/-- Why a document gives no configuration. -/
inductive ConfigFault where
  | rejected (rejection : Rejection)
  | invalid (fault : InvalidConfig)
  deriving DecidableEq, Repr

/-! ## The overflow policy -/

/-- Each policy has three accepted spellings. -/
def OverflowPolicy.ofName? (name : String) : Option OverflowPolicy :=
  if name ∈ ["Reset", "RESET", "reset"] then some .reset
  else if name ∈ ["Wrap", "WRAP", "wrap"] then some .wrap
  else none

/-- The name of a policy, after its opening mark. -/
def OverflowPolicy.readName : Reader OverflowPolicy := do
  match ofName? (← quoted) with
  | some policy => return policy
  | none => throw .mismatched

/-- A policy by its name, or an object that has the name as its only key and null as its value. -/
def OverflowPolicy.read : Reader OverflowPolicy := do
  let c ← peek
  if c = '"' then
    advance
    readName
  else if c = '\x7b' then
    advance
    expect '"'
    let policy ← readName
    expect ':'
    null
    expect '\x7d'
    return policy
  else throw .malformed

/-! ## The sections -/

/-- A 64-bit size. -/
def Config.size : Reader UInt64 := do return (← natural (UInt64.size - 1)).toUInt64

/-- A 32-bit logarithm of a table size. -/
def Config.tableBits : Reader UInt32 := do return (← natural (UInt32.size - 1)).toUInt32

def Config.generalFields : List (RecordField Config) :=
  [⟨"trace_transfers", fun config => do return { config with traceTransfers := ← boolean }⟩]

def Config.shadowFields : List (RecordField Config) :=
  [⟨"stack_size", fun config => do return { config with stackSize := ← size }⟩,
    ⟨"slot_capacity", fun config => do return { config with slotCapacity := ← size }⟩,
    ⟨"link_table_bits", fun config => do return { config with linkTableBits := ← tableBits }⟩,
    ⟨"overflow", fun config => do return { config with overflow := ← OverflowPolicy.read }⟩]

def Config.ibtcFields : List (RecordField Config) :=
  [⟨"index_bits", fun config => do return { config with indexBits := ← tableBits }⟩]

def Config.sections : List (RecordField Config) :=
  [⟨"general", record generalFields⟩,
    ⟨"shadow", record shadowFields⟩,
    ⟨"ibtc", record ibtcFields⟩]

/-- What a document says, before its ranges are checked. Only blanks may follow the record. -/
def Config.decode (text : String) : Except Rejection Config :=
  match record sections {} text.toList with
  | .error rejection => .error rejection
  | .ok (config, rest) => if dropBlank rest = [] then .ok config else .error .malformed

/-- The configuration that a document describes. -/
def Config.ofText (text : String) : Except ConfigFault Config :=
  match decode text with
  | .error rejection => .error (.rejected rejection)
  | .ok config =>
    match config.validate with
    | .error fault => .error (.invalid fault)
    | .ok () => .ok config

end TransferCache
