import TransferCache.Document.Value

/-!
# Records in a document

A record is written as an object, whose members may stand in any order, or as a list of its fields
in their declared order. Fields left out keep the value they had. An object may have members under
other keys, which are passed over; a field named twice is rejected when its second key has been
read. A list may not be longer than the fields are.
-/

namespace TransferCache.Document

/-- A field of a record of type `σ`: its key, and how its value changes the record. -/
structure RecordField (σ : Type) where
  key : String
  read : σ → Reader σ

variable {σ : Type}

/-! ## Objects -/

/-- The key of the next member, or nothing at the end of the object. -/
def memberKey (first : Bool) : Reader (Option String) := do
  let c ← peek
  if c = '\x7d' then
    advance
    return none
  else
    unless first do expect ','
    expect '"'
    return some (← quoted)

/-- The members of an object from some point on, where `seen` are the fields already read. The
budget is as long as the unread text; every member takes a character, so both run out together. -/
def members (fields : List (RecordField σ)) : List Char → Bool → List String → σ → Reader σ
  | [], _, _, _ => throw .truncated
  | _ :: budget, first, seen, record => do
    match ← memberKey first with
    | none => return record
    | some key =>
      match fields.find? fun field => field.key = key with
      | none =>
        expect ':'
        skipValue
        members fields budget false seen record
      | some field =>
        if key ∈ seen then throw .mismatched
        else
          expect ':'
          let changed ← field.read record
          members fields budget false (key :: seen) changed

/-! ## Lists -/

/-- The elements of a list from some point on, one for each of the given fields at most. -/
def elements : List (RecordField σ) → Bool → σ → Reader σ
  | [], _, record => do
    expect ']'
    return record
  | field :: fields, first, record => do
    if (← peek) = ']' then
      advance
      return record
    else
      unless first do expect ','
      let changed ← field.read record
      elements fields false changed

/-- Reads a record over the values it has when nothing is said about it. -/
def record (fields : List (RecordField σ)) (start : σ) : Reader σ := do
  let c ← peek
  if c = '\x7b' then
    advance
    fun text => members fields text true [] start text
  else if c = '[' then
    advance
    elements fields true start
  else unfitting

end TransferCache.Document
