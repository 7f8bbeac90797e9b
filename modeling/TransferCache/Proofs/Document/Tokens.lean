import Mathlib.Data.List.TakeWhile
import TransferCache.Proofs.Document.Grammar

/-!
# Reading marks and strings

Blanks before a mark are passed over, and a string is read up to its closing mark and no further,
whatever follows it.

* `WrittenText.quoted_append`: a string that matters is read as the characters it stands for.
* `StringRest.skipQuoted_append`: a string that does not matter is passed over, also where its
  escapes stand for no character.
-/

namespace TransferCache.Document

variable {α β : Type} {text rest : List Char}

/-! ## Steps of a reader -/

/-- A reader goes on with what its first part read. -/
theorem bind_of_ok {first : Reader α} {next : α → Reader β} {value : α}
    (read : first text = .ok (value, rest)) : (first >>= next) text = next value rest := by
  change (first text >>= fun done => next done.1 done.2) = _
  rw [read]
  rfl

theorem map_of_ok {first : Reader α} {value : α} (change : α → β)
    (read : first text = .ok (value, rest)) :
    (first.map change) text = .ok (change value, rest) := by
  change (first text >>= fun done => pure (change done.1, done.2)) = _
  rw [read]
  rfl

theorem Blanks.forall_isBlank {blanks : List Char} (blank : Blanks blanks) :
    ∀ c ∈ blanks, isBlank c = true := by
  intro c member
  have listed := blank c member
  simpa [isBlank, or_assoc] using listed

theorem Blanks.dropBlank_append {blanks : List Char} (blank : Blanks blanks) {c : Char}
    (plain : isBlank c = false) (rest : List Char) :
    dropBlank (blanks ++ c :: rest) = c :: rest := by
  unfold dropBlank
  rw [List.dropWhile_append_of_pos blank.forall_isBlank,
    List.dropWhile_cons_of_neg (by simp [plain])]

theorem advance_cons (c : Char) (rest : List Char) : advance (c :: rest) = .ok ((), rest) := rfl

/-- The next character that is not blank is seen past the blanks. -/
theorem Blanks.peek_append {blanks : List Char} (blank : Blanks blanks) {c : Char}
    (plain : isBlank c = false) (rest : List Char) :
    peek (blanks ++ c :: rest) = .ok (c, c :: rest) :=
  peek_blanks blank.forall_isBlank plain rest

theorem Blanks.expect_append {blanks : List Char} (blank : Blanks blanks) {mark : Char}
    (plain : isBlank mark = false) (rest : List Char) :
    expect mark (blanks ++ mark :: rest) = .ok ((), rest) := by
  unfold expect
  rw [bind_of_ok (blank.peek_append plain rest), if_pos rfl]
  rfl

theorem Blanks.dropBlank_eq_nil {blanks : List Char} (blank : Blanks blanks) :
    dropBlank blanks = [] :=
  List.dropWhile_eq_nil_iff.2 blank.forall_isBlank

/-! ## Escapes -/

theorem HexDigit.hexDigit?_eq {value : Nat} {c : Char} (digit : HexDigit value c) :
    hexDigit? c = some value := by
  have all : ∀ value < 16, hexDigit? value.digitChar = some value ∧
      hexDigit? value.digitChar.toUpper = some value := by decide
  obtain ⟨small, rfl | rfl⟩ := digit
  · exact (all value small).1
  · exact (all value small).2

theorem HexQuad.hexQuad_append {value : Nat} {quad : List Char} (written : HexQuad value quad)
    (rest : List Char) : hexQuad (quad ++ rest) = .ok (value, rest) := by
  obtain ⟨first, second, third, fourth⟩ := written
  simp only [hexQuad, List.cons_append, List.nil_append, List.take_succ_cons, List.take_zero,
    List.mapM_cons, List.mapM_nil, first.hexDigit?_eq, second.hexDigit?_eq, third.hexDigit?_eq,
    fourth.hexDigit?_eq, List.drop_succ_cons, List.drop_zero]
  rfl

/-- A letter of the table is no `u` and has its meaning. -/
theorem letterEscape?_of_mem {letter c : Char} (listed : (letter, c) ∈ letterEscapes) :
    letter ≠ 'u' ∧ letterEscape? letter = some c := by
  have all : ∀ escape ∈ letterEscapes, escape.1 ≠ 'u' ∧
      letterEscape? escape.1 = some escape.2 := by decide
  exact all (letter, c) listed

/-- A character is neither half of a pair. -/
theorem not_surrogate (c : Char) :
    isLowSurrogate c.toNat = false ∧ isHighSurrogate c.toNat = false := by
  have scalar : c.toNat < 0xd800 ∨ 0xdfff < c.toNat ∧ c.toNat < 0x110000 := c.valid
  unfold isLowSurrogate isHighSurrogate
  simp only [Bool.and_eq_false_iff, decide_eq_false_iff_not]
  omega

/-! ## Text that matters -/

theorem WrittenChar.length_pos {c : Char} {written : List Char} (writes : WrittenChar c written) :
    0 < written.length := by
  cases writes <;> exact Nat.succ_pos _

/-- An escape of one unit stands for its character. -/
theorem HexQuad.unitEscape_append {c : Char} {quad : List Char} (written : HexQuad c.toNat quad)
    (rest : List Char) : unitEscape (quad ++ rest) = .ok (c, rest) := by
  obtain ⟨notLow, notHigh⟩ := not_surrogate c
  unfold unitEscape
  rw [bind_of_ok (written.hexQuad_append rest), if_neg (by simp [notLow]),
    if_neg (by simp [notHigh]), Char.ofNat_toNat]
  rfl

/-- An escape of two units stands for the character beyond U+FFFF that they make up. -/
theorem unitEscape_pair {c : Char} {high low : Nat} {first second : List Char}
    (value : c.toNat = 0x10000 + high * 0x400 + low) (highSmall : high < 0x400)
    (lowSmall : low < 0x400) (one : HexQuad (0xd800 + high) first)
    (two : HexQuad (0xdc00 + low) second) (rest : List Char) :
    unitEscape (first ++ '\\' :: 'u' :: (second ++ rest)) = .ok (c, rest) := by
  have notLow : isLowSurrogate (0xd800 + high) = false := by
    simp only [isLowSurrogate, Bool.and_eq_false_iff, decide_eq_false_iff_not]
    omega
  have isHigh : isHighSurrogate (0xd800 + high) = true := by
    simp only [isHighSurrogate, Bool.and_eq_true, decide_eq_true_iff]
    omega
  have isLow : isLowSurrogate (0xdc00 + low) = true := by
    simp only [isLowSurrogate, Bool.and_eq_true, decide_eq_true_iff]
    omega
  have paired : pairedChar (0xd800 + high) (0xdc00 + low) = c := by
    unfold pairedChar
    rw [Nat.add_sub_cancel_left, Nat.add_sub_cancel_left, ← value, Char.ofNat_toNat]
  have marks : exactly ['\\', 'u'] ('\\' :: 'u' :: (second ++ rest)) = .ok ((), second ++ rest) :=
    exactly_append ['\\', 'u'] (second ++ rest)
  unfold unitEscape
  rw [bind_of_ok (one.hexQuad_append _), if_neg (by simp [notLow]), if_pos isHigh,
    bind_of_ok marks, bind_of_ok (two.hexQuad_append rest), if_pos isLow, paired]
  rfl

theorem nextChar_cons (c : Char) (rest : List Char) : nextChar (c :: rest) = .ok (c, rest) := rfl

/-- After a backslash and `u` the units of an escape are read. -/
theorem quotedChar_unit (rest : List Char) :
    quotedChar ('\\' :: 'u' :: rest) = (unitEscape >>= fun c => pure (some c)) rest := by
  unfold quotedChar
  rw [bind_of_ok (nextChar_cons '\\' _), if_neg (by decide), if_pos rfl,
    bind_of_ok (nextChar_cons 'u' rest), if_pos rfl]

theorem WrittenChar.quotedChar_append {c : Char} {written : List Char}
    (writes : WrittenChar c written) (rest : List Char) :
    quotedChar (written ++ rest) = .ok (some c, rest) := by
  cases writes with
  | plain plain =>
    obtain ⟨visible, notMark, notBackslash⟩ := plain
    unfold quotedChar
    rw [List.singleton_append, bind_of_ok (nextChar_cons c rest), if_neg notMark,
      if_neg notBackslash, if_neg (Nat.not_lt.2 visible)]
    rfl
  | @letter letter _ listed =>
    obtain ⟨notUnit, means⟩ := letterEscape?_of_mem listed
    unfold quotedChar
    rw [List.cons_append, List.singleton_append, bind_of_ok (nextChar_cons '\\' _),
      if_neg (by decide), if_pos rfl, bind_of_ok (nextChar_cons letter rest), if_neg notUnit, means]
    rfl
  | unit quad =>
    rw [List.cons_append, List.cons_append, quotedChar_unit,
      bind_of_ok (quad.unitEscape_append rest)]
    rfl
  | @pair _ high low first second value highSmall lowSmall one two =>
    have read := unitEscape_pair value highSmall lowSmall one two rest
    simp only [List.cons_append, List.append_assoc]
    rw [quotedChar_unit, bind_of_ok read]
    rfl

/-- A string is read up to its closing mark. -/
theorem WrittenText.quotedFrom_append {chars text : List Char} (writes : WrittenText chars text)
    (earlier : List Char) {budget : List Char} (enough : text.length ≤ budget.length)
    (rest : List Char) :
    quotedFrom budget earlier (text ++ rest) = .ok (earlier.reverse ++ chars, rest) := by
  induction writes generalizing earlier budget with
  | nil =>
    obtain ⟨_, budget, rfl⟩ := List.exists_cons_of_length_pos enough
    have closed : quotedChar (['"'] ++ rest) = .ok (none, rest) := rfl
    unfold quotedFrom
    rw [bind_of_ok closed, List.append_nil]
    rfl
  | @cons c chars written text writes _ ih =>
    have positive := writes.length_pos
    rw [List.length_append] at enough
    obtain ⟨_, budget, rfl⟩ := List.exists_cons_of_length_pos (by omega : 0 < budget.length)
    rw [List.length_cons] at enough
    have later : text.length ≤ budget.length := by omega
    unfold quotedFrom
    rw [List.append_assoc, bind_of_ok (writes.quotedChar_append (text ++ rest))]
    change quotedFrom budget (c :: earlier) (text ++ rest) = _
    rw [ih (c :: earlier) later, List.reverse_cons, List.append_assoc, List.singleton_append]

theorem WrittenText.quoted_append {string : String} {text : List Char}
    (writes : WrittenText string.toList text) (rest : List Char) :
    quoted (text ++ rest) = .ok (string, rest) := by
  have enough : text.length ≤ (text ++ rest).length := by simp
  have read := map_of_ok String.ofList (writes.quotedFrom_append [] enough rest)
  rw [List.reverse_nil, List.nil_append, String.ofList_toList] at read
  exact read

/-! ## Text that does not matter -/

theorem StringPart.length_pos {part : List Char} (valid : StringPart part) : 0 < part.length := by
  cases valid <;> exact Nat.succ_pos _

theorem StringPart.skipQuotedChar_append {part : List Char} (valid : StringPart part)
    (rest : List Char) : skipQuotedChar (part ++ rest) = .ok (false, rest) := by
  cases valid with
  | @plain c plain =>
    obtain ⟨visible, notMark, notBackslash⟩ := plain
    unfold skipQuotedChar
    rw [List.singleton_append, bind_of_ok (nextChar_cons c rest), if_neg notMark,
      if_neg notBackslash, if_neg (Nat.not_lt.2 visible)]
    rfl
  | @letter letter _ listed =>
    obtain ⟨notUnit, means⟩ := letterEscape?_of_mem listed
    unfold skipQuotedChar
    rw [List.cons_append, List.singleton_append, bind_of_ok (nextChar_cons '\\' _),
      if_neg (by decide), if_pos rfl, bind_of_ok (nextChar_cons letter rest), if_neg notUnit, means,
      if_pos Option.isSome_some]
    rfl
  | @unit _ quad written =>
    unfold skipQuotedChar
    rw [List.cons_append, List.cons_append, bind_of_ok (nextChar_cons '\\' _), if_neg (by decide),
      if_pos rfl, bind_of_ok (nextChar_cons 'u' _), if_pos rfl,
      bind_of_ok (written.hexQuad_append rest)]
    rfl

theorem StringRest.skipQuotedFrom_append {text : List Char} (valid : StringRest text)
    {budget : List Char} (enough : text.length ≤ budget.length) (rest : List Char) :
    skipQuotedFrom budget (text ++ rest) = .ok ((), rest) := by
  induction valid generalizing budget with
  | nil =>
    obtain ⟨_, budget, rfl⟩ := List.exists_cons_of_length_pos enough
    rfl
  | @cons part text valid _ ih =>
    have positive := valid.length_pos
    rw [List.length_append] at enough
    obtain ⟨_, budget, rfl⟩ := List.exists_cons_of_length_pos (by omega : 0 < budget.length)
    rw [List.length_cons] at enough
    have later : text.length ≤ budget.length := by omega
    unfold skipQuotedFrom
    rw [List.append_assoc, bind_of_ok (valid.skipQuotedChar_append (text ++ rest)),
      if_neg Bool.false_ne_true]
    exact ih later

theorem StringRest.skipQuoted_append {text : List Char} (valid : StringRest text)
    (rest : List Char) : skipQuoted (text ++ rest) = .ok ((), rest) :=
  valid.skipQuotedFrom_append (by simp) rest

end TransferCache.Document
