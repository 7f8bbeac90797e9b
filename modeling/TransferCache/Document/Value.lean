import TransferCache.Document.Number
import TransferCache.Document.Quoted

/-!
# Values in a document

Readers for the kinds of value that a configuration holds, and the two ways of dealing with any
other value: `unfitting` rejects a value where another kind is required, and `skipValue` passes over
a value that nobody asked for, however deep it nests.
-/

namespace TransferCache.Document

/-- The word that starts with a letter, where there is one. -/
def wordOf? : Char → Option (List Char)
  | 't' => some "true".toList
  | 'f' => some "false".toList
  | 'n' => some "null".toList
  | _ => none

/-- Passes over a value without parts that starts with `c`, by the given readers of strings and
numbers. -/
def skipScalar (c : Char) (afterMark : Reader Unit) (digitwise : Reader Unit) : Reader Unit := do
  if c = '"' then
    advance
    afterMark
  else if c = '-' || c.isDigit then digitwise
  else
    match wordOf? c with
    | some letters => exactly letters
    | none => throw .malformed

/-! ## Values that matter -/

/-- Rejects the next value because another kind is required. A list or record is rejected at once;
any other value is read to its end first, so that its own faults come before its kind. -/
def unfitting {α : Type} : Reader α := do
  let c ← peek
  if c = '[' || c = '\x7b' then throw .mismatched
  else
    skipScalar c (discard quoted) (discard finiteNumber)
    throw .mismatched

def boolean : Reader Bool := do
  let c ← peek
  if c = 't' then
    exactly "true".toList
    return true
  else if c = 'f' then
    exactly "false".toList
    return false
  else unfitting

/-- An unsigned whole number up to a bound. -/
def natural (bound : Nat) : Reader Nat := do
  let c ← peek
  if c = '-' || c.isDigit then
    match (← finiteNumber).natural? with
    | some value => if value ≤ bound then return value else throw .mismatched
    | none => throw .mismatched
  else unfitting

def null : Reader Unit := do
  if (← peek) = 'n' then exactly "null".toList else unfitting

/-! ## Values that do not matter -/

/-- A bracket that is open while a value is passed over. -/
inductive Bracket where
  | list
  | record
  deriving DecidableEq, Repr

def Bracket.closing : Bracket → Char
  | .list => ']'
  | .record => '\x7d'

def Bracket.ofOpening? : Char → Option Bracket
  | '[' => some .list
  | '\x7b' => some .record
  | _ => none

/-- Where in a value the next character stands. -/
inductive Place where
  /-- At the start of a value. -/
  | value
  /-- Just after a complete value. -/
  | finished
  deriving DecidableEq, Repr

/-- What introduces the next value inside a bracket: a key and a colon in a record, nothing in a
list. -/
def skipKey : Bracket → Reader Unit
  | .list => return ()
  | .record => do
    expect '"'
    skipQuoted
    expect ':'

/-- Passes over the rest of a value, inside the given brackets, innermost first. The budget is as
long as the unread text; every step takes a character, so both run out together. -/
def skipFrom : List Char → Place → List Bracket → Reader Unit
  | _, .finished, [] => return ()
  | [], _, _ => throw .truncated
  | _ :: budget, .finished, bracket :: outer => do
    let c ← peek
    if c = bracket.closing then
      advance
      skipFrom budget .finished outer
    else if c = ',' then
      advance
      skipKey bracket
      skipFrom budget .value (bracket :: outer)
    else throw .malformed
  | _ :: budget, .value, brackets => do
    let c ← peek
    match Bracket.ofOpening? c with
    | some bracket =>
      advance
      if (← peek) = bracket.closing then
        advance
        skipFrom budget .finished brackets
      else
        skipKey bracket
        skipFrom budget .value (bracket :: brackets)
    | none =>
      skipScalar c skipQuoted skipNumber
      skipFrom budget .finished brackets

/-- Passes over one value. -/
def skipValue : Reader Unit := fun text => skipFrom text .value [] text

end TransferCache.Document
