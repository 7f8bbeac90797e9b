import Mathlib.Data.List.Nodup
import TransferCache.Document.Value

/-!
# The grammar of documents

What a JSON text is, without regard to how it is read: blanks, strings, numbers, and values of any
depth. A string may be looked at in two ways. `WrittenText` relates it to the characters it stands
for, so its escapes must stand for characters. `StringRest` only says that it is a string, in which
an escape of the form `\u` may have any four hexadecimal digits.

A record is written as an object. `WrittenRecord` says which objects write the fields of a record
that are given by their forms: the members stand in any order, a field that may be left out need not
be there, and members under other keys hold any value at all.
-/

namespace TransferCache.Document

def Blanks (text : List Char) : Prop := ∀ c ∈ text, c ∈ [' ', '\t', '\n', '\r']

instance (text : List Char) : Decidable (Blanks text) := List.decidableBAll _ text

/-! ## Strings -/

/-- A digit of either case. -/
def HexDigit (value : Nat) (c : Char) : Prop :=
  value < 16 ∧ (c = value.digitChar ∨ c = value.digitChar.toUpper)

instance (value : Nat) (c : Char) : Decidable (HexDigit value c) :=
  inferInstanceAs (Decidable (_ ∧ _))

/-- Four digits, the most significant first. -/
inductive HexQuad : Nat → List Char → Prop
  | digits {v₁ v₂ v₃ v₄ : Nat} {c₁ c₂ c₃ c₄ : Char} :
    HexDigit v₁ c₁ → HexDigit v₂ c₂ → HexDigit v₃ c₃ → HexDigit v₄ c₄ →
    HexQuad (((v₁ * 16 + v₂) * 16 + v₃) * 16 + v₄) [c₁, c₂, c₃, c₄]

/-- The escapes of one letter, with what they stand for. -/
def letterEscapes : List (Char × Char) :=
  [('"', '"'), ('\\', '\\'), ('/', '/'), ('b', '\x08'), ('f', '\x0c'), ('n', '\n'), ('r', '\r'),
    ('t', '\t')]

/-- A character that may stand for itself. -/
def Plain (c : Char) : Prop := 0x20 ≤ c.toNat ∧ c ≠ '"' ∧ c ≠ '\\'

instance (c : Char) : Decidable (Plain c) := inferInstanceAs (Decidable (_ ∧ _))

/-- What a character of a string may be written as. Beyond U+FFFF an escape takes a pair of
surrogates. -/
inductive WrittenChar : Char → List Char → Prop
  | plain {c : Char} : Plain c → WrittenChar c [c]
  | letter {letter c : Char} : (letter, c) ∈ letterEscapes → WrittenChar c ['\\', letter]
  | unit {c : Char} {quad : List Char} :
    HexQuad c.toNat quad → WrittenChar c ('\\' :: 'u' :: quad)
  | pair {c : Char} {high low : Nat} {first second : List Char} :
    c.toNat = 0x10000 + high * 0x400 + low → high < 0x400 → low < 0x400 →
    HexQuad (0xd800 + high) first → HexQuad (0xdc00 + low) second →
    WrittenChar c ('\\' :: 'u' :: first ++ '\\' :: 'u' :: second)

/-- What a string that stands for these characters may be written as after its opening mark. -/
inductive WrittenText : List Char → List Char → Prop
  | nil : WrittenText [] ['"']
  | cons {c : Char} {chars written text : List Char} :
    WrittenChar c written → WrittenText chars text → WrittenText (c :: chars) (written ++ text)

/-- Characters that may stand for themselves are written as they are. -/
theorem writtenText_of_plain {chars : List Char} (plain : chars.all (Plain ·) = true) :
    WrittenText chars (chars ++ ['"']) := by
  induction chars with
  | nil => exact .nil
  | cons c chars ih =>
    rw [List.all_cons, Bool.and_eq_true, decide_eq_true_iff] at plain
    exact (WrittenText.cons (.plain plain.1) (ih plain.2) : WrittenText _ ([c] ++ _))

/-- A character of a string, or half of one. -/
inductive StringPart : List Char → Prop
  | plain {c : Char} : Plain c → StringPart [c]
  | letter {letter c : Char} : (letter, c) ∈ letterEscapes → StringPart ['\\', letter]
  | unit {value : Nat} {quad : List Char} : HexQuad value quad → StringPart ('\\' :: 'u' :: quad)

/-- A string after its opening mark. -/
inductive StringRest : List Char → Prop
  | nil : StringRest ['"']
  | cons {part text : List Char} : StringPart part → StringRest text → StringRest (part ++ text)

/-! ## Numbers -/

def Digits (text : List Char) : Prop := text ≠ [] ∧ ∀ c ∈ text, c.isDigit = true

/-- Digits in which a leading zero stands alone. -/
def Whole (text : List Char) : Prop := Digits text ∧ (text.head? = some '0' → text = ['0'])

inductive Fraction : List Char → Prop
  | none : Fraction []
  | digits {text : List Char} : Digits text → Fraction ('.' :: text)

inductive Exponent : List Char → Prop
  | none : Exponent []
  | digits {mark : Char} {sign text : List Char} :
    mark = 'e' ∨ mark = 'E' → sign ∈ [[], ['+'], ['-']] → Digits text →
    Exponent (mark :: (sign ++ text))

inductive NumberText : List Char → Prop
  | parts {sign whole fraction exponent : List Char} :
    sign ∈ [[], ['-']] → Whole whole → Fraction fraction → Exponent exponent →
    NumberText (sign ++ (whole ++ (fraction ++ exponent)))

/-! ## Values -/

def Bracket.opening : Bracket → Char
  | .list => '['
  | .record => '\x7b'

/-- What stands before a value inside a bracket. -/
inductive KeyText : Bracket → List Char → Prop
  | list : KeyText .list []
  | record {before text after : List Char} :
    Blanks before → StringRest text → Blanks after →
    KeyText .record (before ++ '"' :: (text ++ (after ++ [':'])))

/-- A whole value, or what stands between two brackets. -/
inductive Part where
  | value
  | items (bracket : Bracket)

inductive Valid : Part → List Char → Prop
  | word {text : List Char} :
    text ∈ ["true".toList, "false".toList, "null".toList] → Valid .value text
  | number {text : List Char} : NumberText text → Valid .value text
  | string {text : List Char} : StringRest text → Valid .value ('"' :: text)
  | empty {bracket : Bracket} {blanks : List Char} :
    Blanks blanks → Valid .value (bracket.opening :: (blanks ++ [bracket.closing]))
  | filled {bracket : Bracket} {items : List Char} :
    Valid (.items bracket) items → Valid .value (bracket.opening :: (items ++ [bracket.closing]))
  | last {bracket : Bracket} {key before value after : List Char} :
    KeyText bracket key → Blanks before → Valid .value value → Blanks after →
    Valid (.items bracket) (key ++ (before ++ (value ++ after)))
  | next {bracket : Bracket} {key before value after items : List Char} :
    KeyText bracket key → Blanks before → Valid .value value → Blanks after →
    Valid (.items bracket) items →
    Valid (.items bracket) (key ++ (before ++ (value ++ (after ++ ',' :: items))))

/-! ## Records -/

/-- How a field of a record may be written. -/
structure FieldForm where
  key : String
  /-- The texts of its value. -/
  Writes : List Char → Prop
  /-- Whether the field may be left out. -/
  Omissible : Prop

/-- The values that a member under a key may have. -/
inductive MemberValue (forms : List FieldForm) : String → List Char → Prop
  | field {form : FieldForm} {value : List Char} :
    form ∈ forms → form.Writes value → MemberValue forms form.key value
  | other {key : String} {value : List Char} :
    (∀ form ∈ forms, form.key ≠ key) → Valid .value value → MemberValue forms key value

/-- A member of an object. -/
inductive Member (forms : List FieldForm) : String → List Char → Prop
  | parts {key : String} {before text colon gap value after : List Char} :
    Blanks before → WrittenText key.toList text → Blanks colon → Blanks gap →
    MemberValue forms key value → Blanks after →
    Member forms key (before ++ '"' :: (text ++ (colon ++ ':' :: (gap ++ (value ++ after)))))

/-- Members of an object, with their keys in order. -/
inductive Members (forms : List FieldForm) : List String → List Char → Prop
  | last {key : String} {text : List Char} : Member forms key text → Members forms [key] text
  | next {key : String} {keys : List String} {text more : List Char} :
    Member forms key text → Members forms keys more →
    Members forms (key :: keys) (text ++ ',' :: more)

/-- An object, with the keys of its members in order. -/
inductive Object (forms : List FieldForm) : List String → List Char → Prop
  | empty {blanks : List Char} : Blanks blanks → Object forms [] ('\x7b' :: (blanks ++ ['\x7d']))
  | filled {keys : List String} {items : List Char} :
    Members forms keys items → Object forms keys ('\x7b' :: (items ++ ['\x7d']))

/-- An object that names no field twice and leaves out only fields that may be left out. -/
def WrittenRecord (forms : List FieldForm) (text : List Char) : Prop :=
  ∃ keys, Object forms keys text ∧
    ∀ form ∈ forms, keys.count form.key ≤ 1 ∧ (form.key ∉ keys → form.Omissible)

/-! ## Whatever can be written -/

/-- The members for some of the fields can be written one after the other. -/
theorem exists_members {forms listed : List FieldForm} (some : listed ≠ [])
    (writable : ∀ form ∈ listed, form ∈ forms ∧ form.key.toList.all (Plain ·) = true ∧
      ∃ value, form.Writes value) :
    ∃ items, Members forms (listed.map (·.key)) items := by
  have none : Blanks [] := by decide
  induction listed with
  | nil => exact absurd rfl some
  | cons form listed ih =>
    obtain ⟨⟨known, plain, value, writes⟩, rest⟩ := List.forall_mem_cons.1 writable
    have value := MemberValue.field known writes
    have member := Member.parts none (writtenText_of_plain plain) none none value none
    cases listed with
    | nil => exact ⟨_, .last member⟩
    | cons second listed =>
      obtain ⟨items, written⟩ := ih (List.cons_ne_nil _ _) rest
      exact ⟨_, .next member written⟩

/-- A record can be written if each of its fields can. -/
theorem exists_writtenRecord {forms : List FieldForm} (some : forms ≠ [])
    (distinct : (forms.map (·.key)).Nodup)
    (writable : ∀ form ∈ forms,
      form.key.toList.all (Plain ·) = true ∧ ∃ value, form.Writes value) :
    ∃ text, WrittenRecord forms text := by
  obtain ⟨items, written⟩ := exists_members some fun form listed => ⟨listed, writable form listed⟩
  refine ⟨_, _, .filled written, fun form listed => ⟨List.nodup_iff_count_le_one.1 distinct _, ?_⟩⟩
  exact fun absent => absurd (List.mem_map_of_mem listed) absent

end TransferCache.Document
