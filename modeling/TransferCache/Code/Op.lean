import TransferCache.Hexadecimal

/-!
# Runtime operations

The runtime half of a cache protocol is a short list of loads, stores, compares and jumps that is
placed in line wherever translated code calls, returns or jumps. Operations name the parts of a
context by what they are, not by where they lie in memory.
-/

namespace TransferCache.Code

/-- A virtual register that holds a 64-bit word. -/
structure Temp where
  number : UInt16
  deriving DecidableEq, Repr

/-- A place in an operation list that branches can name. -/
structure Label where
  number : UInt16
  deriving DecidableEq, Repr

/-- A word of the shadow stack besides its frames. -/
inductive StackField where
  /-- The index of the top frame. -/
  | top
  /-- One past the last usable index, which cannot be stored to. -/
  | limit
  /-- The number of live frames. -/
  | live
  deriving DecidableEq, Repr

/-- Half of a frame. -/
inductive FramePart where
  | expected
  | slot
  deriving DecidableEq, Repr

/-- A comparison of unsigned words. -/
inductive Condition where
  | eq
  | ne
  | lt
  | ge
  deriving DecidableEq, Repr

def Condition.holds (condition : Condition) (lhs rhs : UInt64) : Bool :=
  match condition with
  | .eq => lhs = rhs
  | .ne => lhs ≠ rhs
  | .lt => lhs < rhs
  | .ge => rhs ≤ lhs

/-- Work that operations leave to a call. -/
inductive Helper where
  /-- Look up a jump target: the argument is its guest address, the result a host address. -/
  | lookupTarget
  /-- Empty the shadow stack. -/
  | flushStack
  /-- Account for a push on a full stack. -/
  | noteOverflow
  deriving DecidableEq, Repr

/-- A register or a constant. -/
inductive Operand where
  | temp (source : Temp)
  | constant (word : UInt64)
  deriving DecidableEq, Repr

inductive Op where
  /-- Load a word of the shadow stack. -/
  | loadField (dst : Temp) (field : StackField)
  /-- Store a word of the shadow stack. -/
  | storeField (field : StackField) (src : Temp)
  /-- Load half of the frame whose index is in a register. -/
  | loadEntry (dst : Temp) (index : Temp) (part : FramePart)
  /-- Store half of the frame whose index is in a register. -/
  | storeEntry (index : Temp) (part : FramePart) (value : Operand)
  /-- Load the slot whose number is in a register. -/
  | loadSlot (dst : Temp) (slot : Temp)
  | setConstant (dst : Temp) (word : UInt64)
  /-- Add a signed constant, modulo the word size. -/
  | addConstant (dst : Temp) (src : Temp) (addend : Int64)
  /-- Go to a label if a comparison holds. -/
  | branch (condition : Condition) (lhs : Temp) (rhs : Operand) (target : Label)
  /-- The place that a label names. -/
  | label (place : Label)
  /-- Call a helper, with a register for its argument and one for its result. -/
  | call (helper : Helper) (arg : Option Temp) (dst : Option Temp)
  /-- Leave for the host address in a register. -/
  | leave (target : Temp)
  deriving DecidableEq, Repr

end TransferCache.Code
