import TransferCache.Proofs.Document.Tokens

/-!
# Reading numbers

A number is read as far as its grammar goes, provided that what follows does not go on with it. The
digits of a whole number that fits a 64-bit word are read as that number, because no leading part of
them is beyond a word and no word is rounded to infinity.

* `NumberText.skipNumber_append`: a number that does not matter is passed over, whatever its size.
* `natural_append`: a whole number that matters is read.
-/

namespace TransferCache.Document

variable {rest : List Char}

/-! ## Where a number ends -/

/-- The text does not go on with a digit. -/
def NoDigit (text : List Char) : Prop := ∀ c ∈ text.head?, c.isDigit = false

/-- The text does not go on with any part of a number. -/
def NumberEnds (text : List Char) : Prop :=
  NoDigit text ∧ ∀ c ∈ text.head?, c ∉ ['.', 'e', 'E']

theorem NumberEnds.cons {c : Char} (noDigit : c.isDigit = false) (noPart : c ∉ ['.', 'e', 'E'])
    (rest : List Char) : NumberEnds (c :: rest) := by
  constructor
  · rintro _ ⟨⟩
    exact noDigit
  · rintro _ ⟨⟩
    exact noPart

/-- No number goes on past blanks. -/
theorem NumberEnds.append_blanks {blanks : List Char} (blank : Blanks blanks)
    (ends : NumberEnds rest) : NumberEnds (blanks ++ rest) := by
  cases blanks with
  | nil => exact ends
  | cons c more =>
    have first := blank c List.mem_cons_self
    simp only [List.mem_cons, List.not_mem_nil, or_false] at first
    rcases first with rfl | rfl | rfl | rfl <;> exact .cons rfl (by decide) (more ++ rest)

/-! ## The written form -/

theorem takeDigits_eq_nil (noDigit : NoDigit rest) : takeDigits rest = [] := by
  cases rest with
  | nil => rfl
  | cons c more => exact List.takeWhile_cons_of_neg (by simp [noDigit c rfl])

theorem dropDigits_eq_self (noDigit : NoDigit rest) : dropDigits rest = rest := by
  cases rest with
  | nil => rfl
  | cons c more => exact List.dropWhile_cons_of_neg (by simp [noDigit c rfl])

theorem Digits.digits_append {text : List Char} (written : Digits text) (noDigit : NoDigit rest) :
    digits (text ++ rest) = .ok (text, rest) := by
  have taken : takeDigits (text ++ rest) = text := by
    rw [takeDigits, List.takeWhile_append_of_pos written.2]
    exact (congrArg (text ++ ·) (takeDigits_eq_nil noDigit)).trans (List.append_nil text)
  have dropped : dropDigits (text ++ rest) = rest := by
    rw [dropDigits, List.dropWhile_append_of_pos written.2]
    exact dropDigits_eq_self noDigit
  have nonempty : text ++ rest ≠ [] := List.append_ne_nil_of_left_ne_nil written.1 rest
  unfold digits
  rw [if_neg nonempty, taken, dropped, if_neg written.1]

theorem Whole.wholeDigits_append {text : List Char} (written : Whole text)
    (noDigit : NoDigit rest) : wholeDigits (text ++ rest) = .ok (text, rest) := by
  unfold wholeDigits
  rw [bind_of_ok (written.1.digits_append noDigit), if_neg fun zero => zero.2 (written.2 zero.1)]
  rfl

/-- A number that starts with a digit has no sign. -/
theorem Digits.sign_append {text : List Char} (written : Digits text) (rest : List Char) :
    sign (text ++ rest) = .ok (false, text ++ rest) := by
  obtain ⟨nonempty, digits⟩ := written
  cases text with
  | nil => exact absurd rfl nonempty
  | cons c more =>
    have digit := digits c List.mem_cons_self
    rw [List.cons_append]
    unfold sign
    split
    · cases ‹c :: _ = _›
      cases digit
    · rfl

theorem fractionDigits_of_ends (ends : ∀ c ∈ rest.head?, c ≠ '.') :
    fractionDigits rest = .ok ([], rest) := by
  unfold fractionDigits
  split
  · exact absurd rfl (ends '.' rfl)
  · rfl

theorem exponentPart_of_ends (ends : ∀ c ∈ rest.head?, c ∉ ['e', 'E']) :
    exponentPart rest = .ok (none, rest) := by
  unfold exponentPart
  split
  · exact absurd List.mem_cons_self (ends 'e' rfl)
  · exact absurd (List.mem_cons_of_mem _ List.mem_cons_self) (ends 'E' rfl)
  · rfl

theorem Fraction.fractionDigits_append {text : List Char} (written : Fraction text)
    (noDigit : NoDigit rest) (noPoint : ∀ c ∈ rest.head?, c ≠ '.') :
    ∃ digits, fractionDigits (text ++ rest) = .ok (digits, rest) := by
  cases written with
  | none => exact ⟨[], fractionDigits_of_ends noPoint⟩
  | digits written => exact ⟨_, written.digits_append noDigit⟩

theorem Digits.exponentValue_append {sign text : List Char} (written : Digits text)
    (signed : sign ∈ [[], ['+'], ['-']]) (noDigit : NoDigit rest) :
    ∃ value, exponentValue (sign ++ (text ++ rest)) = .ok (value, rest) := by
  have read := written.digits_append noDigit
  have unsigned : sign = [] → ∃ value, exponentValue (text ++ rest) = .ok (value, rest) := by
    obtain ⟨nonempty, digits⟩ := written
    rintro -
    cases text with
    | nil => exact absurd rfl nonempty
    | cons c more =>
      have digit := digits c List.mem_cons_self
      rw [List.cons_append] at read ⊢
      unfold exponentValue
      split
      · cases ‹c :: _ = _›
        cases digit
      · cases ‹c :: _ = _›
        cases digit
      · exact ⟨_, map_of_ok _ read⟩
  simp only [List.mem_cons, List.not_mem_nil, or_false] at signed
  rcases signed with rfl | rfl | rfl
  · exact unsigned rfl
  · exact ⟨_, map_of_ok (fun written => (digitsValue written : Int)) read⟩
  · exact ⟨_, map_of_ok (fun written => -(digitsValue written : Int)) read⟩

theorem Exponent.exponentPart_append {text : List Char} (written : Exponent text)
    (ends : NumberEnds rest) : ∃ value, exponentPart (text ++ rest) = .ok (value, rest) := by
  cases written with
  | none =>
    refine ⟨.none, exponentPart_of_ends fun c member listed => ?_⟩
    exact ends.2 c member (List.mem_cons_of_mem _ listed)
  | @digits mark sign text marked signed written =>
    obtain ⟨value, read⟩ := written.exponentValue_append signed ends.1
    rw [← List.append_assoc] at read
    rcases marked with rfl | rfl
    · exact ⟨some value, map_of_ok some read⟩
    · exact ⟨some value, map_of_ok some read⟩

/-- Neither digits nor a fraction go on with an exponent or with what ends a number. -/
theorem Exponent.stops {text : List Char} (written : Exponent text) (ends : NumberEnds rest) :
    NoDigit (text ++ rest) ∧ ∀ c ∈ (text ++ rest).head?, c ≠ '.' := by
  cases written with
  | none =>
    refine ⟨ends.1, ?_⟩
    rintro c member rfl
    exact ends.2 _ member List.mem_cons_self
  | digits marked =>
    constructor
    · rintro _ ⟨⟩
      rcases marked with rfl | rfl <;> rfl
    · rintro _ ⟨⟩
      rcases marked with rfl | rfl <;> decide

theorem Fraction.stops {text : List Char} (written : Fraction text) (noDigit : NoDigit rest) :
    NoDigit (text ++ rest) := by
  cases written with
  | none => exact noDigit
  | digits _ =>
    rintro _ ⟨⟩
    rfl

/-- A number is read to its end. -/
theorem NumberText.number_append {text : List Char} (valid : NumberText text)
    (ends : NumberEnds rest) : ∃ written, number (text ++ rest) = .ok (written, rest) := by
  obtain @⟨sign, whole, fraction, exponent, signed, isWhole, isFraction, isExponent⟩ := valid
  obtain ⟨noDigit, noPoint⟩ := isExponent.stops ends
  have signRead : ∃ negative, Document.sign (sign ++ (whole ++ (fraction ++ (exponent ++ rest)))) =
      .ok (negative, whole ++ (fraction ++ (exponent ++ rest))) := by
    simp only [List.mem_cons, List.not_mem_nil, or_false] at signed
    rcases signed with rfl | rfl
    · exact ⟨false, isWhole.1.sign_append _⟩
    · exact ⟨true, rfl⟩
  obtain ⟨negative, signRead⟩ := signRead
  obtain ⟨digits, fractionRead⟩ := isFraction.fractionDigits_append noDigit noPoint
  obtain ⟨value, exponentRead⟩ := isExponent.exponentPart_append ends
  refine ⟨⟨negative, whole, digits, value⟩, ?_⟩
  unfold number
  simp only [List.append_assoc]
  rw [bind_of_ok signRead, bind_of_ok (isWhole.wholeDigits_append (isFraction.stops noDigit)),
    bind_of_ok fractionRead, bind_of_ok exponentRead]
  rfl

/-- A number that does not matter is passed over. -/
theorem NumberText.skipNumber_append {text : List Char} (valid : NumberText text)
    (ends : NumberEnds rest) : skipNumber (text ++ rest) = .ok ((), rest) := by
  obtain ⟨written, read⟩ := valid.number_append ends
  unfold skipNumber
  rw [read]

/-! ## Whole numbers in decimal -/

theorem digits_toDigits (n : Nat) : Digits (Nat.toDigits 10 n) :=
  ⟨Nat.toDigits_ne_nil, fun _ member =>
    Nat.isDigit_of_mem_toDigits (by decide) (Nat.le_refl 10) member⟩

/-- Only zero has a leading zero. -/
theorem whole_toDigits (n : Nat) : Whole (Nat.toDigits 10 n) := by
  refine ⟨digits_toDigits n, ?_⟩
  induction n using Nat.strongRecOn with
  | ind n ih =>
    intro zero
    rw [Nat.toDigits_eq_if (by decide)] at zero ⊢
    split
    · rw [if_pos ‹_›] at zero
      rw [Option.some.inj zero]
    · rename_i large
      rw [if_neg large] at zero
      have leads : (Nat.toDigits 10 (n / 10)).head? = some '0' := by
        cases leading : Nat.toDigits 10 (n / 10) with
        | nil => exact absurd leading Nat.toDigits_ne_nil
        | cons digit more => rwa [leading] at zero
      have value := Nat.ofDigitChars_ten_toDigits (n := n / 10)
      rw [ih (n / 10) (by omega) leads] at value
      have none : 0 = n / 10 := value
      omega

/-- Digits whose value fits a word all fit the significand. -/
theorem extendSignificand_of_le (significand : Nat) {digits : List Char}
    (fits : Nat.ofDigitChars 10 digits significand ≤ wordMax) :
    extendSignificand significand digits = (Nat.ofDigitChars 10 digits significand, []) := by
  induction digits generalizing significand with
  | nil => rfl
  | cons digit more ih =>
    rw [Nat.ofDigitChars_cons, Nat.mul_comm] at fits ⊢
    have grows : significand * 10 + (digit.toNat - '0'.toNat) ≤
        Nat.ofDigitChars 10 more (significand * 10 + (digit.toNat - '0'.toNat)) := by
      rw [Nat.ofDigitChars_eq_ofDigitChars_zero]
      have power : 0 < 10 ^ more.length := Nat.pow_pos (by decide)
      exact Nat.le_trans (Nat.le_mul_of_pos_left _ power) (Nat.le_add_right _ _)
    unfold extendSignificand
    rw [if_pos (Nat.le_trans grows fits)]
    exact ih _ fits

/-- Rounding to double precision at most doubles a number. -/
theorem nearestDouble_le (n : Nat) : nearestDouble n ≤ 2 * n := by
  rcases Nat.eq_zero_or_pos n with rfl | positive
  · decide
  · have spaced : 0 < 1 <<< (n.log2 - 52) := by
      rw [Nat.one_shiftLeft]
      exact Nat.pow_pos (by decide)
    have small : 1 <<< (n.log2 - 52) ≤ n := by
      rw [Nat.one_shiftLeft]
      exact Nat.le_trans (Nat.pow_le_pow_right (by decide) (Nat.sub_le _ _))
        (Nat.log2_self_le (Nat.ne_of_gt positive))
    have near := (roundedQuotient_near n spaced).1
    unfold nearestDouble
    dsimp only
    omega

/-- The value of a whole number that fits a word is finite. -/
theorem overflows_toDigits {n : Nat} (fits : n ≤ wordMax) :
    Number.overflows ⟨false, Nat.toDigits 10 n, [], none⟩ = false := by
  have extended := extendSignificand_of_le 0
    (Nat.le_trans (Nat.le_of_eq Nat.ofDigitChars_ten_toDigits) fits)
  have scaled : Number.scaled ⟨false, Nat.toDigits 10 n, [], none⟩ = (n, 0) := by
    unfold Number.scaled
    rw [extended, Nat.ofDigitChars_ten_toDigits]
    rfl
  have finite : nearestDouble n * nearestDouble 1 < doubleOverflow := by
    have one : nearestDouble 1 = 1 := by decide
    have wide : 2 * wordMax < doubleOverflow := by decide
    have doubled := nearestDouble_le n
    rw [one, Nat.mul_one]
    omega
  unfold Number.overflows
  rw [scaled]
  cases n with
  | zero => rfl
  | succ n =>
    change (decide (308 < 0) || decide (doubleOverflow ≤ _ * nearestDouble 1)) = false
    rw [decide_eq_false (Nat.not_le.2 finite)]
    rfl

/-- A whole number that matters is read as the number it is. -/
theorem finiteNumber_toDigits {n : Nat} (fits : n ≤ wordMax) (ends : NumberEnds rest) :
    finiteNumber (Nat.toDigits 10 n ++ rest) =
      .ok (⟨false, Nat.toDigits 10 n, [], none⟩, rest) := by
  have noPoint : ∀ c ∈ rest.head?, c ≠ '.' := by
    rintro c member rfl
    exact ends.2 _ member List.mem_cons_self
  have noMark : ∀ c ∈ rest.head?, c ∉ ['e', 'E'] := fun c member listed =>
    ends.2 c member (List.mem_cons_of_mem _ listed)
  have read : number (Nat.toDigits 10 n ++ rest) =
      .ok (⟨false, Nat.toDigits 10 n, [], none⟩, rest) := by
    unfold number
    rw [bind_of_ok ((digits_toDigits n).sign_append rest),
      bind_of_ok ((whole_toDigits n).wholeDigits_append ends.1),
      bind_of_ok (fractionDigits_of_ends noPoint), bind_of_ok (exponentPart_of_ends noMark)]
    rfl
  unfold finiteNumber
  rw [bind_of_ok read, if_neg (by simp [overflows_toDigits fits])]
  rfl

/-- No number starts with a blank. -/
theorem isBlank_of_numeric {c : Char} (numeric : (c = '-' || c.isDigit) = true) :
    isBlank c = false := by
  refine Bool.eq_false_iff.2 fun blank => ?_
  simp only [isBlank, Bool.or_eq_true, decide_eq_true_iff] at blank
  rcases blank with ((rfl | rfl) | rfl) | rfl <;> cases numeric

/-- A whole number up to a bound is read. -/
theorem natural_append {n bound : Nat} (fits : n ≤ bound) (word : bound ≤ wordMax)
    {blanks : List Char} (blank : Blanks blanks) (ends : NumberEnds rest) :
    natural bound (blanks ++ (Nat.toDigits 10 n ++ rest)) = .ok (n, rest) := by
  have read := finiteNumber_toDigits (Nat.le_trans fits word) ends
  have value : Number.natural? ⟨false, Nat.toDigits 10 n, [], none⟩ = some n := by
    unfold Number.natural?
    rw [if_pos ⟨rfl, rfl, rfl⟩]
    exact congrArg some Nat.ofDigitChars_ten_toDigits
  cases digits : Nat.toDigits 10 n with
  | nil => exact absurd digits Nat.toDigits_ne_nil
  | cons c more =>
    have digit : c.isDigit = true := (digits_toDigits n).2 c (digits ▸ List.mem_cons_self)
    have numeric : (c = '-' || c.isDigit) = true := Bool.or_eq_true_iff.2 (Or.inr digit)
    rw [digits] at read value
    rw [List.cons_append] at read ⊢
    unfold natural
    rw [bind_of_ok (blank.peek_append (isBlank_of_numeric numeric) _), if_pos numeric,
      bind_of_ok read, value]
    change (if n ≤ bound then _ else _ : Reader Nat) rest = _
    rw [if_pos fits]
    rfl

end TransferCache.Document
