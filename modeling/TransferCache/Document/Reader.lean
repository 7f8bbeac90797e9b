/-!
# Reading a document

A document is read in one pass over its characters, and the first problem met decides the outcome:
text that cannot be JSON is malformed, a value that does not fit its place is mismatched, and text
that ends too early is truncated. A reader takes the characters still unread and returns a value
with the characters after it.
-/

namespace TransferCache.Document

/-- Why a document is rejected. -/
inductive Rejection where
  /-- The text is not JSON. -/
  | malformed
  /-- The text is JSON so far, but this value does not fit here. -/
  | mismatched
  /-- The text ends too early. -/
  | truncated
  deriving DecidableEq, Repr

/-- Reads a value from the front of the unread characters, or rejects the document. -/
abbrev Reader (α : Type) := StateT (List Char) (Except Rejection) α

/-- The four characters that may stand between the parts of a document. -/
def isBlank (c : Char) : Bool := c = ' ' || c = '\t' || c = '\n' || c = '\r'

def dropBlank (text : List Char) : List Char := text.dropWhile isBlank

/-- The next character that is not blank; it stays unread. -/
def peek : Reader Char := fun text =>
  match dropBlank text with
  | [] => .error .truncated
  | c :: rest => .ok (c, c :: rest)

/-- The next character, blank or not. -/
def nextChar : Reader Char
  | [] => .error .truncated
  | c :: rest => .ok (c, rest)

/-- Takes the character that was just seen. -/
def advance : Reader Unit := fun text => .ok ((), text.tail)

/-- Requires a mark, after any blanks. -/
def expect (mark : Char) : Reader Unit := do
  if (← peek) = mark then advance else throw .malformed

/-- Requires exactly these characters, without blanks before or between them. -/
def exactly : List Char → Reader Unit
  | [], text => .ok ((), text)
  | _ :: _, [] => .error .truncated
  | wanted :: more, c :: rest => if c = wanted then exactly more rest else .error .malformed

/-! ## What is read back -/

theorem exactly_append (wanted rest : List Char) :
    exactly wanted (wanted ++ rest) = .ok ((), rest) := by
  induction wanted with
  | nil => rfl
  | cons c more ih => simp [exactly, ih]

/-- Blanks before a character that is not one are passed over. -/
theorem peek_blanks {blanks : List Char} (blank : ∀ c ∈ blanks, isBlank c = true) {c : Char}
    (plain : isBlank c = false) (rest : List Char) :
    peek (blanks ++ c :: rest) = .ok (c, c :: rest) := by
  have dropped : dropBlank (blanks ++ c :: rest) = c :: rest := by
    induction blanks with
    | nil => simp [dropBlank, plain]
    | cons b more ih =>
      have head := blank b (by simp)
      have tail := ih fun x mem => blank x (by simp [mem])
      simpa [dropBlank, head] using tail
  simp [peek, dropped]

end TransferCache.Document
