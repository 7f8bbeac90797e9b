import TransferCache.Code.Op

/-!
# The written form of operations

One line of text for each operation: a mnemonic in a column of ten characters, then the operands.
Registers and labels have decimal numbers, constants are hexadecimal after a dollar sign, and signed
addends are decimal.
-/

namespace TransferCache.Code

def Temp.text (temp : Temp) : String := "t" ++ toString temp.number.toNat

def Label.text (label : Label) : String := "L" ++ toString label.number.toNat

def StackField.text : StackField → String
  | .top => "ShackTop"
  | .limit => "ShackEnd"
  | .live => "ShackLive"

def FramePart.text : FramePart → String
  | .expected => "Expected"
  | .slot => "Slot"

def Condition.text : Condition → String
  | .eq => "Eq"
  | .ne => "Ne"
  | .lt => "Lt"
  | .ge => "Ge"

def Helper.text : Helper → String
  | .lookupTarget => "LookupIbtc"
  | .flushStack => "ShackFlush"
  | .noteOverflow => "ShackOverflow"

def constantText (word : UInt64) : String := "$" ++ hexText word.toNat

def Operand.text : Operand → String
  | .temp source => source.text
  | .constant word => constantText word

/-- The argument of a call in parentheses, where it has one. -/
def argumentText : Option Temp → String
  | none => ""
  | some arg => " (" ++ arg.text ++ ")"

/-- The destination of a call after an arrow, where it has one. -/
def destinationText : Option Temp → String
  | none => ""
  | some dst => " -> " ++ dst.text

def Op.text : Op → String
  | .loadField dst field => "ld_env    " ++ dst.text ++ ", " ++ field.text
  | .storeField field src => "st_env    " ++ field.text ++ ", " ++ src.text
  | .loadEntry dst index part =>
    "ld_entry  " ++ dst.text ++ ", [" ++ index.text ++ "]." ++ part.text
  | .storeEntry index part value =>
    "st_entry  [" ++ index.text ++ "]." ++ part.text ++ ", " ++ value.text
  | .loadSlot dst slot => "ld_slot   " ++ dst.text ++ ", [" ++ slot.text ++ "]"
  | .setConstant dst word => "movi      " ++ dst.text ++ ", " ++ constantText word
  | .addConstant dst src addend =>
    "addi      " ++ dst.text ++ ", " ++ src.text ++ ", " ++ toString addend.toInt
  | .branch condition lhs rhs target =>
    "brcond    " ++ condition.text ++ " " ++ lhs.text ++ ", " ++ rhs.text ++ " -> " ++ target.text
  | .label place => place.text ++ ":"
  | .call helper arg dst => "call      " ++ helper.text ++ argumentText arg ++ destinationText dst
  | .leave target => "goto_ptr  " ++ target.text

/-- A listing has one line for each operation. -/
def listing (ops : Array Op) : List String := ops.toList.map Op.text

end TransferCache.Code
