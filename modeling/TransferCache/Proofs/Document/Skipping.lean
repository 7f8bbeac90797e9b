import Mathlib.Data.List.DropRight
import TransferCache.Proofs.Document.Numbers

/-!
# Passing over values

A value that nobody asked for is passed over to its end, however deep it nests and whatever its
strings and numbers are. Every character of the value pays for at most one step, so a budget as long
as the text is enough; what is left of it is still enough for what follows.

* `Valid.passed`: every value, and what stands between any two brackets, is passed over.
* `Valid.skipValue_append`: the same for a value on its own.
-/

namespace TransferCache.Document

variable {text rest : List Char}

/-! ## First characters -/

theorem Bracket.isBlank_opening (bracket : Bracket) : isBlank bracket.opening = false := by
  cases bracket <;> rfl

theorem Bracket.isBlank_closing (bracket : Bracket) : isBlank bracket.closing = false := by
  cases bracket <;> rfl

theorem Bracket.ofOpening?_opening (bracket : Bracket) :
    Bracket.ofOpening? bracket.opening = some bracket := by
  cases bracket <;> rfl

theorem Bracket.opening_ne_closing (bracket other : Bracket) :
    bracket.opening ≠ other.closing := by
  cases bracket <;> cases other <;> decide

theorem Bracket.comma_ne_closing (bracket : Bracket) : ',' ≠ bracket.closing := by
  cases bracket <;> decide

/-- A number ends before a closing bracket. -/
theorem Bracket.numberEnds_closing (bracket : Bracket) (rest : List Char) :
    NumberEnds (bracket.closing :: rest) := by
  cases bracket <;> exact .cons rfl (by decide) rest

theorem numberEnds_comma (rest : List Char) : NumberEnds (',' :: rest) :=
  .cons rfl (by decide) rest

/-- A number starts with its sign or with a digit. -/
theorem NumberText.exists_cons (valid : NumberText text) :
    ∃ c more, text = c :: more ∧ (c = '-' || c.isDigit) = true := by
  obtain @⟨sign, whole, _, _, signed, ⟨⟨nonempty, digits⟩, -⟩, -, -⟩ := valid
  simp only [List.mem_cons, List.not_mem_nil, or_false] at signed
  rcases signed with rfl | rfl
  · cases whole with
    | nil => exact absurd rfl nonempty
    | cons c more =>
      exact ⟨c, _, rfl, Bool.or_eq_true_iff.2 (Or.inr (digits c List.mem_cons_self))⟩
  · exact ⟨'-', _, rfl, rfl⟩

/-- A value without parts, which is passed over in one step. -/
inductive Scalar : List Char → Prop
  | starts {c : Char} {more : List Char} (plain : isBlank c = false)
    (notOpening : Bracket.ofOpening? c = none)
    (notClosing : ∀ bracket : Bracket, c ≠ bracket.closing)
    (passes : ∀ rest, NumberEnds rest →
      skipScalar c skipQuoted skipNumber (c :: (more ++ rest)) = .ok ((), rest)) :
    Scalar (c :: more)

theorem scalar_of_word (listed : text ∈ ["true".toList, "false".toList, "null".toList]) :
    Scalar text := by
  have notClosing {c : Char} (noList : c ≠ ']') (noRecord : c ≠ '\x7d') (bracket : Bracket) :
      c ≠ bracket.closing := by
    cases bracket
    · exact noList
    · exact noRecord
  simp only [List.mem_cons, List.not_mem_nil, or_false] at listed
  rcases listed with rfl | rfl | rfl
  · exact .starts rfl rfl (notClosing (by decide) (by decide)) fun rest _ =>
      exactly_append "true".toList rest
  · exact .starts rfl rfl (notClosing (by decide) (by decide)) fun rest _ =>
      exactly_append "false".toList rest
  · exact .starts rfl rfl (notClosing (by decide) (by decide)) fun rest _ =>
      exactly_append "null".toList rest

theorem StringRest.scalar (valid : StringRest text) : Scalar ('"' :: text) := by
  refine .starts rfl rfl (fun bracket => ?_) fun rest _ => valid.skipQuoted_append rest
  cases bracket <;> decide

theorem NumberText.scalar (valid : NumberText text) : Scalar text := by
  obtain ⟨c, more, rfl, numeric⟩ := valid.exists_cons
  refine .starts (isBlank_of_numeric numeric) ?_ (fun bracket closes => ?_) fun rest ends => ?_
  · unfold Bracket.ofOpening?
    split
    · cases numeric
    · cases numeric
    · rfl
  · rw [closes] at numeric
    cases bracket <;> cases numeric
  · have notMark : c ≠ '"' := by
      rintro rfl
      cases numeric
    unfold skipScalar
    rw [if_neg notMark, if_pos numeric]
    exact valid.skipNumber_append ends

/-- No value starts with a blank or a closing bracket. -/
theorem Valid.exists_cons (valid : Valid .value text) :
    ∃ c more, text = c :: more ∧ isBlank c = false ∧ ∀ bracket : Bracket, c ≠ bracket.closing := by
  have scalar : Scalar text → ∃ c more, text = c :: more ∧ isBlank c = false ∧
      ∀ bracket : Bracket, c ≠ bracket.closing := by
    rintro ⟨plain, -, notClosing, -⟩
    exact ⟨_, _, rfl, plain, notClosing⟩
  cases valid with
  | word listed => exact scalar (scalar_of_word listed)
  | number valid => exact scalar valid.scalar
  | string valid => exact scalar valid.scalar
  | @empty bracket => exact ⟨_, _, rfl, bracket.isBlank_opening, bracket.opening_ne_closing⟩
  | @filled bracket => exact ⟨_, _, rfl, bracket.isBlank_opening, bracket.opening_ne_closing⟩

/-! ## Steps -/

/-- The part of an object or list that comes after its opening bracket or after a comma. -/
def skipItem (budget : List Char) (bracket : Bracket) (outer : List Bracket) : Reader Unit := do
  skipKey bracket
  skipFrom budget .value (bracket :: outer)

theorem skipFrom_done (budget rest : List Char) :
    skipFrom budget .finished [] rest = .ok ((), rest) := by
  cases budget <;> rfl

/-- A closing bracket ends what it closes. -/
theorem skipFrom_closing {blanks : List Char} (blank : Blanks blanks) (step : Char)
    (budget : List Char) (bracket : Bracket) (outer : List Bracket) (rest : List Char) :
    skipFrom (step :: budget) .finished (bracket :: outer) (blanks ++ bracket.closing :: rest) =
      skipFrom budget .finished outer rest := by
  rw [skipFrom, bind_of_ok (blank.peek_append bracket.isBlank_closing rest), if_pos rfl]
  rfl

/-- Another item follows a comma. -/
theorem skipFrom_comma {blanks : List Char} (blank : Blanks blanks) (step : Char)
    (budget : List Char) (bracket : Bracket) (outer : List Bracket) (rest : List Char) :
    skipFrom (step :: budget) .finished (bracket :: outer) (blanks ++ ',' :: rest) =
      skipItem budget bracket outer rest := by
  rw [skipFrom, bind_of_ok (blank.peek_append rfl rest), if_neg bracket.comma_ne_closing,
    if_pos rfl]
  rfl

theorem Scalar.skipFrom_append (scalar : Scalar text) (ends : NumberEnds rest)
    {blanks : List Char} (blank : Blanks blanks) (step : Char) (budget : List Char)
    (brackets : List Bracket) :
    skipFrom (step :: budget) .value brackets (blanks ++ (text ++ rest)) =
      skipFrom budget .finished brackets rest := by
  obtain ⟨plain, notOpening, -, passes⟩ := scalar
  rw [skipFrom, List.cons_append, bind_of_ok (blank.peek_append plain _), notOpening]
  exact bind_of_ok (passes rest ends)

/-! ## Items -/

theorem bind_of_eq {α β : Type} {first : Reader α} (next : α → Reader β) {other : List Char}
    (same : first text = first other) : (first >>= next) text = (first >>= next) other := by
  change (first text >>= fun done => next done.1 done.2) = _
  rw [same]
  rfl

theorem peek_dropBlank (text : List Char) : peek (dropBlank text) = peek text := by
  have again : dropBlank (dropBlank text) = dropBlank text := List.dropWhile_idempotent isBlank text
  unfold peek
  rw [again]

/-- Blanks before an item do not matter. -/
theorem skipItem_dropBlank (budget : List Char) (bracket : Bracket) (outer : List Bracket)
    (text : List Char) :
    skipItem budget bracket outer (dropBlank text) = skipItem budget bracket outer text := by
  cases bracket with
  | list =>
    change skipFrom budget .value (.list :: outer) (dropBlank text) =
      skipFrom budget .value (.list :: outer) text
    cases budget with
    | nil => rfl
    | cons _ budget =>
      rw [skipFrom]
      exact bind_of_eq _ (peek_dropBlank text)
  | record =>
    have mark : expect '"' (dropBlank text) = expect '"' text := bind_of_eq _ (peek_dropBlank text)
    exact bind_of_eq _ (bind_of_eq _ mark)

theorem KeyText.skipKey_append {bracket : Bracket} {key : List Char} (valid : KeyText bracket key)
    (rest : List Char) : skipKey bracket (key ++ rest) = .ok ((), rest) := by
  cases valid with
  | list => rfl
  | @record before text after blank string blankAfter =>
    unfold skipKey
    simp only [List.append_assoc, List.cons_append, List.nil_append]
    rw [bind_of_ok (blank.expect_append rfl _), bind_of_ok (string.skipQuoted_append _)]
    exact blankAfter.expect_append rfl rest

/-- The first character of an item does not close the bracket that it stands in. -/
theorem KeyText.dropBlank_append {bracket : Bracket} {key before value : List Char}
    (isKey : KeyText bracket key) (blank : Blanks before) (isValue : Valid .value value)
    (rest : List Char) :
    ∃ c more, dropBlank (key ++ (before ++ (value ++ rest))) = c :: more ∧
      c ≠ bracket.closing := by
  cases isKey with
  | list =>
    obtain ⟨c, more, rfl, plain, notClosing⟩ := isValue.exists_cons
    exact ⟨c, _, blank.dropBlank_append plain _, notClosing .list⟩
  | record blank =>
    simp only [List.append_assoc, List.cons_append]
    exact ⟨'"', _, blank.dropBlank_append rfl _, by decide⟩

theorem Valid.dropBlank_items {bracket : Bracket} (valid : Valid (.items bracket) text)
    (rest : List Char) :
    ∃ c more, dropBlank (text ++ rest) = c :: more ∧ c ≠ bracket.closing := by
  cases valid with
  | last isKey blank isValue =>
    simp only [List.append_assoc]
    exact isKey.dropBlank_append blank isValue _
  | next isKey blank isValue =>
    simp only [List.append_assoc]
    exact isKey.dropBlank_append blank isValue _

theorem skipFrom_empty {lead blanks : List Char} (leading : Blanks lead) (blank : Blanks blanks)
    (step : Char) (budget : List Char) (bracket : Bracket) (brackets : List Bracket)
    (rest : List Char) :
    skipFrom (step :: budget) .value brackets
        (lead ++ bracket.opening :: (blanks ++ bracket.closing :: rest)) =
      skipFrom budget .finished brackets rest := by
  rw [skipFrom, bind_of_ok (leading.peek_append bracket.isBlank_opening _),
    bracket.ofOpening?_opening]
  dsimp only
  rw [bind_of_ok (advance_cons _ _), bind_of_ok (blank.peek_append bracket.isBlank_closing rest),
    if_pos rfl]
  rfl

theorem skipFrom_filled {lead : List Char} (leading : Blanks lead) {bracket : Bracket}
    (opens : ∃ c more, dropBlank text = c :: more ∧ c ≠ bracket.closing) (step : Char)
    (budget : List Char) (brackets : List Bracket) :
    skipFrom (step :: budget) .value brackets (lead ++ bracket.opening :: text) =
      skipItem budget bracket brackets text := by
  obtain ⟨c, more, starts, notClosing⟩ := opens
  have seen : peek text = .ok (c, dropBlank text) := by
    unfold peek
    rw [starts]
  rw [skipFrom, bind_of_ok (leading.peek_append bracket.isBlank_opening _),
    bracket.ofOpening?_opening]
  dsimp only
  rw [bind_of_ok (advance_cons _ text), bind_of_ok seen, if_neg notClosing]
  -- Looking for the closing bracket has dropped the blanks before the first item.
  exact skipItem_dropBlank budget bracket brackets text

/-! ## Whole values -/

/-- A value is passed over, and what stands between two brackets together with the closing one. No
more of the budget is spent than there are characters. -/
def Passed : Part → List Char → Prop
  | .value, text => ∀ {budget lead rest : List Char} (brackets : List Bracket),
    text.length ≤ budget.length → Blanks lead → NumberEnds rest →
    ∃ spare, budget.length ≤ text.length + spare.length ∧
      skipFrom budget .value brackets (lead ++ (text ++ rest)) =
        skipFrom spare .finished brackets rest
  | .items bracket, text => ∀ {budget : List Char} (outer : List Bracket) (rest : List Char),
    text.length < budget.length →
    ∃ spare, budget.length ≤ text.length + 1 + spare.length ∧
      skipItem budget bracket outer (text ++ bracket.closing :: rest) =
        skipFrom spare .finished outer rest

theorem Scalar.passed (scalar : Scalar text) : Passed .value text := by
  intro budget lead rest brackets enough leading ends
  have nonempty : 0 < text.length := by
    cases scalar
    exact Nat.succ_pos _
  obtain ⟨step, budget, rfl⟩ :=
    List.exists_cons_of_length_pos (Nat.lt_of_lt_of_le nonempty enough)
  refine ⟨budget, ?_, scalar.skipFrom_append ends leading step budget brackets⟩
  rw [List.length_cons]
  omega

/-- Brackets with nothing between them are passed over in one step. -/
theorem passed_empty {bracket : Bracket} {blanks : List Char} (blank : Blanks blanks) :
    Passed .value (bracket.opening :: (blanks ++ [bracket.closing])) := by
  intro budget lead rest brackets enough leading _
  simp only [List.length_cons, List.length_append, List.length_nil] at enough ⊢
  obtain ⟨step, budget, rfl⟩ :=
    List.exists_cons_of_length_pos (Nat.lt_of_lt_of_le (Nat.succ_pos _) enough)
  refine ⟨budget, ?_, ?_⟩
  · rw [List.length_cons]
    omega
  · rw [List.cons_append, List.append_assoc]
    exact skipFrom_empty leading blank step budget bracket brackets rest

theorem passed_filled {bracket : Bracket} {items : List Char} (valid : Valid (.items bracket) items)
    (passed : Passed (.items bracket) items) :
    Passed .value (bracket.opening :: (items ++ [bracket.closing])) := by
  intro budget lead rest brackets enough leading _
  simp only [List.length_cons, List.length_append, List.length_nil] at enough ⊢
  obtain ⟨step, budget, rfl⟩ :=
    List.exists_cons_of_length_pos (Nat.lt_of_lt_of_le (Nat.succ_pos _) enough)
  rw [List.length_cons] at enough ⊢
  have fits : items.length < budget.length := by omega
  obtain ⟨spare, left, passes⟩ := passed brackets rest fits
  refine ⟨spare, by omega, ?_⟩
  rw [List.cons_append, List.append_assoc, skipFrom_filled leading (valid.dropBlank_items _)]
  exact passes

/-- An item is passed over up to what stands behind it. -/
theorem skipItem_append {bracket : Bracket} {key before value : List Char}
    (isKey : KeyText bracket key) (blank : Blanks before) (passed : Passed .value value)
    {budget : List Char} (enough : value.length ≤ budget.length) (ends : NumberEnds rest)
    (outer : List Bracket) :
    ∃ spare, budget.length ≤ value.length + spare.length ∧
      skipItem budget bracket outer (key ++ (before ++ (value ++ rest))) =
        skipFrom spare .finished (bracket :: outer) rest := by
  obtain ⟨spare, left, passes⟩ := passed (bracket :: outer) enough blank ends
  refine ⟨spare, left, ?_⟩
  unfold skipItem
  rw [bind_of_ok (isKey.skipKey_append _)]
  exact passes

theorem passed_last {bracket : Bracket} {key before value after : List Char}
    (isKey : KeyText bracket key) (blank : Blanks before) (passed : Passed .value value)
    (blankAfter : Blanks after) :
    Passed (.items bracket) (key ++ (before ++ (value ++ after))) := by
  intro budget outer rest enough
  simp only [List.length_append] at enough ⊢
  have ends := NumberEnds.append_blanks blankAfter (bracket.numberEnds_closing rest)
  have fits : value.length ≤ budget.length := by omega
  obtain ⟨spare, left, passes⟩ := skipItem_append isKey blank passed fits ends outer
  obtain ⟨step, spare, rfl⟩ := List.exists_cons_of_length_pos (by omega : 0 < spare.length)
  rw [List.length_cons] at left
  refine ⟨spare, by omega, ?_⟩
  simp only [List.append_assoc]
  rw [passes]
  exact skipFrom_closing blankAfter step spare bracket outer rest

theorem passed_next {bracket : Bracket} {key before value after items : List Char}
    (isKey : KeyText bracket key) (blank : Blanks before) (passed : Passed .value value)
    (blankAfter : Blanks after) (more : Passed (.items bracket) items) :
    Passed (.items bracket) (key ++ (before ++ (value ++ (after ++ ',' :: items)))) := by
  intro budget outer rest enough
  simp only [List.length_append, List.length_cons] at enough ⊢
  have ends := NumberEnds.append_blanks blankAfter
    (numberEnds_comma (items ++ bracket.closing :: rest))
  have fits : value.length ≤ budget.length := by omega
  obtain ⟨spare, left, passes⟩ := skipItem_append isKey blank passed fits ends outer
  obtain ⟨step, spare, rfl⟩ := List.exists_cons_of_length_pos (by omega : 0 < spare.length)
  rw [List.length_cons] at left
  have fits : items.length < spare.length := by omega
  obtain ⟨last, leftLast, passesLast⟩ := more outer rest fits
  refine ⟨last, by omega, ?_⟩
  simp only [List.append_assoc, List.cons_append]
  rw [passes, skipFrom_comma blankAfter]
  exact passesLast

/-- Every value is passed over, and what stands between any two brackets. -/
theorem Valid.passed {part : Part} (valid : Valid part text) : Passed part text := by
  induction valid with
  | word listed => exact (scalar_of_word listed).passed
  | number valid => exact valid.scalar.passed
  | string valid => exact valid.scalar.passed
  | empty blank => exact passed_empty blank
  | filled valid ih => exact passed_filled valid ih
  | last isKey blank _ blankAfter ih => exact passed_last isKey blank ih blankAfter
  | next isKey blank _ blankAfter _ ih more => exact passed_next isKey blank ih blankAfter more

/-- A value that does not matter is passed over. -/
theorem Valid.skipValue_append (valid : Valid .value text) {lead : List Char}
    (leading : Blanks lead) (ends : NumberEnds rest) :
    skipValue (lead ++ (text ++ rest)) = .ok ((), rest) := by
  have enough : text.length ≤ (lead ++ (text ++ rest)).length := by
    simp only [List.length_append]
    omega
  obtain ⟨spare, -, passes⟩ := valid.passed [] enough leading ends
  exact passes.trans (skipFrom_done spare rest)

end TransferCache.Document
