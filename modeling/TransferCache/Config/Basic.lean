import TransferCache.Shadow.Stack

/-!
# Configuration

The sizes and switches of a context, with their defaults and accepted ranges. Sizes are 64-bit and
are bounded only from below; table sizes are given by the logarithm of their number of entries,
which lies between 1 and 24.
-/

namespace TransferCache

/-! ## Defaults and bounds -/

def Config.defaultStackSize : UInt64 := 16384

def Config.defaultSlotCapacity : UInt64 := 16384

def Config.defaultLinkTableBits : UInt32 := 12

def Config.defaultIndexBits : UInt32 := 16

/-- The largest accepted logarithm of a table size. -/
def Config.maxTableBits : UInt32 := 24

/-- How large the parts of a context are and how it behaves. A field that a document does not name
keeps the value given here. -/
structure Config where
  /-- Log every pop of the shadow stack and every lookup of a jump target. -/
  traceTransfers : Bool := false
  /-- Usable frames of the shadow stack. -/
  stackSize : UInt64 := Config.defaultStackSize
  /-- Slots available to call sites. -/
  slotCapacity : UInt64 := Config.defaultSlotCapacity
  /-- Logarithm of the number of buckets of waiting links. -/
  linkTableBits : UInt32 := Config.defaultLinkTableBits
  overflow : OverflowPolicy := .reset
  /-- Logarithm of the number of entries of the target cache. -/
  indexBits : UInt32 := Config.defaultIndexBits
  deriving DecidableEq, Repr

/-! ## Accepted configurations -/

/-- The first field of a configuration that is out of range. -/
inductive InvalidConfig where
  | emptyStack
  | noSlots
  | linkTableBits (bits : UInt32)
  | indexBits (bits : UInt32)
  deriving DecidableEq, Repr

/-- What is wrong with a table size that lies outside the accepted range. -/
def InvalidConfig.tableMessage (field : String) (bits : UInt32) : String :=
  s!"{field} must be in 1..={Config.maxTableBits.toNat}, got {bits.toNat}"

def InvalidConfig.message (fault : InvalidConfig) : String :=
  "invalid configuration: " ++
    match fault with
    | .emptyStack => "shadow.stack_size must be at least 1"
    | .noSlots => "shadow.slot_capacity must be at least 1"
    | .linkTableBits bits => tableMessage "shadow.link_table_bits" bits
    | .indexBits bits => tableMessage "ibtc.index_bits" bits

/-- Whether a table of `2 ^ bits` entries may be built. -/
def Config.acceptsBits (bits : UInt32) : Bool := 1 ≤ bits ∧ bits ≤ maxTableBits

/-- Checks the fields in order and names the first that is out of range. -/
def Config.validate (config : Config) : Except InvalidConfig Unit :=
  if config.stackSize = 0 then .error .emptyStack
  else if config.slotCapacity = 0 then .error .noSlots
  else if ¬acceptsBits config.linkTableBits then .error (.linkTableBits config.linkTableBits)
  else if ¬acceptsBits config.indexBits then .error (.indexBits config.indexBits)
  else .ok ()

/-- A configuration is accepted exactly when every field is in range. -/
theorem Config.validate_eq_ok_iff (config : Config) :
    config.validate = .ok () ↔
      config.stackSize ≠ 0 ∧ config.slotCapacity ≠ 0 ∧
        acceptsBits config.linkTableBits = true ∧ acceptsBits config.indexBits = true := by
  unfold validate
  constructor
  · intro accepted
    split at accepted
    · cases accepted
    split at accepted
    · cases accepted
    split at accepted
    · cases accepted
    split at accepted
    · cases accepted
    refine ⟨?_, ?_, ?_, ?_⟩ <;> simp_all
  · rintro ⟨frames, slots, links, targets⟩
    simp [frames, slots, links, targets]

end TransferCache
