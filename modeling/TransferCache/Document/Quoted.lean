import TransferCache.Document.Reader

/-!
# Quoted text

A string stands between quotation marks; a backslash starts an escape, and characters below U+0020
must be escaped. `quoted` reads the text of a string that matters. There an escape of the form `\u`
gives a UTF-16 unit, and a unit above U+D7FF and below U+E000 is accepted only as half of a pair.
`skipQuoted` passes over a string that does not matter and asks of such an escape only that it has
four hexadecimal digits.
-/

namespace TransferCache.Document

def hexDigit? (c : Char) : Option Nat :=
  if '0' ≤ c ∧ c ≤ '9' then some (c.toNat - '0'.toNat)
  else if 'a' ≤ c ∧ c ≤ 'f' then some (c.toNat - 'a'.toNat + 10)
  else if 'A' ≤ c ∧ c ≤ 'F' then some (c.toNat - 'A'.toNat + 10)
  else none

/-- The number of bytes of a text in UTF-8. -/
def utf8Length (text : List Char) : Nat :=
  text.foldr (fun char bytes => char.utf8Size + bytes) 0

/-- Four hexadecimal digits. The text is truncated only if fewer than four bytes are left of it. -/
def hexQuad : Reader Nat := fun text =>
  match (text.take 4).mapM hexDigit? with
  | some [a, b, c, d] => .ok (((a * 16 + b) * 16 + c) * 16 + d, text.drop 4)
  | _ => .error (if utf8Length (text.take 4) < 4 then .truncated else .malformed)

/-! ## UTF-16 units -/

def isHighSurrogate (unit : Nat) : Bool := 0xd800 ≤ unit && unit ≤ 0xdbff

def isLowSurrogate (unit : Nat) : Bool := 0xdc00 ≤ unit && unit ≤ 0xdfff

/-- The character that a pair of surrogates stands for. -/
def pairedChar (high low : Nat) : Char :=
  Char.ofNat (0x10000 + (high - 0xd800) * 0x400 + (low - 0xdc00))

/-- The character of an escape after its `\u`. -/
def unitEscape : Reader Char := do
  let unit ← hexQuad
  if isLowSurrogate unit then throw .malformed
  else if isHighSurrogate unit then
    exactly ['\\', 'u']
    let low ← hexQuad
    if isLowSurrogate low then return pairedChar unit low else throw .malformed
  else return Char.ofNat unit

/-- The character that a one-letter escape stands for. -/
def letterEscape? : Char → Option Char
  | '"' => some '"'
  | '\\' => some '\\'
  | '/' => some '/'
  | 'b' => some '\x08'
  | 'f' => some '\x0c'
  | 'n' => some '\n'
  | 'r' => some '\r'
  | 't' => some '\t'
  | _ => none

/-! ## Text that matters -/

/-- The next character of a string, or nothing at its closing mark. -/
def quotedChar : Reader (Option Char) := do
  let c ← nextChar
  if c = '"' then return none
  else if c = '\\' then
    let letter ← nextChar
    if letter = 'u' then return some (← unitEscape)
    else
      match letterEscape? letter with
      | some written => return some written
      | none => throw .malformed
  else if c.toNat < 0x20 then throw .malformed
  else return some c

/-- The characters up to the closing mark, after those in `earlier`, which come newest first. The
budget is as long as the unread text; every step takes a character, so both run out together. -/
def quotedFrom : List Char → List Char → Reader (List Char)
  | [], _ => throw .truncated
  | _ :: budget, earlier => do
    match ← quotedChar with
    | none => return earlier.reverse
    | some c => quotedFrom budget (c :: earlier)

/-- The text of a string whose opening mark has been taken. -/
def quoted : Reader String := fun text => (quotedFrom text []).map String.ofList text

/-! ## Text that does not matter -/

/-- Passes over one character of a string and tells whether it was the closing mark. -/
def skipQuotedChar : Reader Bool := do
  let c ← nextChar
  if c = '"' then return true
  else if c = '\\' then
    let letter ← nextChar
    if letter = 'u' then
      let _ ← hexQuad
      return false
    else if (letterEscape? letter).isSome then return false
    else throw .malformed
  else if c.toNat < 0x20 then throw .malformed
  else return false

/-- Passes over characters up to the closing mark, with a budget as long as the unread text. -/
def skipQuotedFrom : List Char → Reader Unit
  | [] => throw .truncated
  | _ :: budget => do
    if ← skipQuotedChar then return () else skipQuotedFrom budget

/-- Passes over a string whose opening mark has been taken. -/
def skipQuoted : Reader Unit := fun text => skipQuotedFrom text text

end TransferCache.Document
