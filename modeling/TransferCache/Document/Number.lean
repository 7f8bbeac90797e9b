import TransferCache.Document.Reader
import TransferCache.Rounding

/-!
# Numbers in a document

A number has a sign, whole digits without a superfluous leading zero, and optional fraction and
exponent. Where its value matters, a number that the text breaks off in is truncated, and one whose
nearest double-precision value would be infinite is malformed. A number that is only passed over may
be of any size, but is malformed however it fails to be complete.
-/

namespace TransferCache.Document

/-- A written number, digit by digit. -/
structure Number where
  negative : Bool
  whole : List Char
  /-- The digits after the point; empty where there is no point. -/
  fraction : List Char
  exponent : Option Int
  deriving DecidableEq, Repr

def takeDigits (text : List Char) : List Char := text.takeWhile Char.isDigit

def dropDigits (text : List Char) : List Char := text.dropWhile Char.isDigit

def digitsValue (digits : List Char) : Nat := Nat.ofDigitChars 10 digits 0

/-! ## The written form -/

def sign : Reader Bool
  | '-' :: rest => .ok (true, rest)
  | text => .ok (false, text)

/-- One digit or more. -/
def digits : Reader (List Char) := fun text =>
  if text = [] then .error .truncated
  else if takeDigits text = [] then .error .malformed
  else .ok (takeDigits text, dropDigits text)

/-- Digits in which a leading zero stands alone. -/
def wholeDigits : Reader (List Char) := do
  let written ← digits
  if written.head? = some '0' ∧ written ≠ ['0'] then throw .malformed else return written

def fractionDigits : Reader (List Char)
  | '.' :: rest => digits rest
  | text => .ok ([], text)

/-- The sign and digits of an exponent. -/
def exponentValue : Reader Int
  | '+' :: rest => (digits.map fun written => (digitsValue written : Int)) rest
  | '-' :: rest => (digits.map fun written => -(digitsValue written : Int)) rest
  | text => (digits.map fun written => (digitsValue written : Int)) text

def exponentPart : Reader (Option Int)
  | 'e' :: rest => (exponentValue.map some) rest
  | 'E' :: rest => (exponentValue.map some) rest
  | text => .ok (none, text)

/-- A number in its written form. -/
def number : Reader Number := do
  let negative ← sign
  let whole ← wholeDigits
  let fraction ← fractionDigits
  let exponent ← exponentPart
  return { negative, whole, fraction, exponent }

/-! ## Its value -/

/-- The value of a number written as an unsigned whole number. -/
def Number.natural? (written : Number) : Option Nat :=
  if written.negative = false ∧ written.fraction = [] ∧ written.exponent = none then
    some (digitsValue written.whole)
  else none

/-- The largest 64-bit word. -/
def wordMax : Nat := UInt64.size - 1

/-- Appends digits to a significand for as long as it fits a 64-bit word, and gives the digits that
are left over. -/
def extendSignificand (significand : Nat) : List Char → Nat × List Char
  | [] => (significand, [])
  | digit :: more =>
    let extended := significand * 10 + (digit.toNat - '0'.toNat)
    if extended ≤ wordMax then extendSignificand extended more else (significand, digit :: more)

/-- The significand of a number and the power of ten it is scaled by. Digits that do not fit the
significand only count for the power. -/
def Number.scaled (written : Number) : Nat × Int :=
  let (whole, wholeLeft) := extendSignificand 0 written.whole
  let (significand, fractionLeft) := extendSignificand whole written.fraction
  let kept := written.fraction.length - fractionLeft.length
  (significand, (wholeLeft.length : Int) - kept + written.exponent.getD 0)

/-- Whether the double-precision product of the significand and its power of ten is infinite. -/
def Number.overflows (written : Number) : Bool :=
  match written.scaled with
  | (0, _) => false
  | (significand, .ofNat power) =>
    308 < power || doubleOverflow ≤ nearestDouble significand * nearestDouble (Nat.pow 10 power)
  | (_, .negSucc _) => false

/-- A number whose value matters. -/
def finiteNumber : Reader Number := do
  let written ← number
  if written.overflows then throw .malformed else return written

/-- Passes over a number whose value does not matter. -/
def skipNumber : Reader Unit := fun text =>
  match number text with
  | .ok (_, rest) => .ok ((), rest)
  | .error _ => .error .malformed

end TransferCache.Document
