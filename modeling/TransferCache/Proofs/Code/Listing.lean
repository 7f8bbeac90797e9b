import Mathlib.Data.List.Basic
import TransferCache.Code.Text

/-!
# Listings say what they list

The line of an operation is read by breaking it up at blanks and punctuation. What is left is a list
of words, the mnemonic and the operands in order (`words_text`); neither digits nor names contain
any mark, so that no word falls apart and none runs into the next. The words give back the
operation, because each kind of operand is written without ambiguity and no operand is an arrow.

* `Op.words_injective`: the words of a line determine the operation.
* `listing_eq_iff`: so do its text and the whole listing, whether its lines are kept apart or joined
  into one text.
-/

namespace TransferCache.Code

/-! ## Words -/

/-- Blanks, punctuation and the end of a line. -/
def isMark (c : Char) : Bool := c ∈ [' ', ',', '[', ']', '.', '(', ')', ':', '\n']

/-- What lies between the marks of a line. -/
def words (line : String) : List String :=
  ((line.toList.splitOnP isMark).filter (· ≠ [])).map String.ofList

/-- A text that marks do not break up. -/
def IsWord (text : String) : Prop := text ≠ "" ∧ ∀ c ∈ text.toList, isMark c = false

instance (text : String) : Decidable (IsWord text) :=
  decidable_of_iff (text ≠ "" ∧ text.toList.all (!isMark ·)) (by simp [IsWord])

/-- A text of marks alone. -/
def AreMarks (text : String) : Prop := text ≠ "" ∧ ∀ c ∈ text.toList, isMark c = true

instance (text : String) : Decidable (AreMarks text) :=
  decidable_of_iff (text ≠ "" ∧ text.toList.all isMark) (by simp [AreMarks])

variable {text marks : String}

theorem toList_ne_nil (nonempty : text ≠ "") : text.toList ≠ [] :=
  mt String.toList_eq_nil_iff.1 nonempty

theorem words_empty : words "" = [] := rfl

@[simp] theorem words_of_isWord (word : IsWord text) : words text = [text] := by
  unfold words
  rw [List.splitOnP_eq_singleton word.2]
  simp [toList_ne_nil word.1]

theorem words_mark {c : Char} (mark : isMark c = true) (rest : List Char) :
    words (String.ofList (c :: rest)) = words (String.ofList rest) := by
  unfold words
  rw [String.toList_ofList, String.toList_ofList, List.splitOnP_cons_eq_if_modifyHead, if_pos mark]
  rfl

theorem words_marks (blank : AreMarks marks) (rest : String) :
    words (marks ++ rest) = words rest := by
  have passed : ∀ blanks : List Char, (∀ c ∈ blanks, isMark c = true) →
      words (String.ofList (blanks ++ rest.toList)) = words rest := by
    intro blanks all
    induction blanks with
    | nil => rw [List.nil_append, String.ofList_toList]
    | cons c blanks ih =>
      rw [List.cons_append, words_mark (all c List.mem_cons_self)]
      exact ih fun later member => all later (List.mem_cons_of_mem c member)
  have whole : marks ++ rest = String.ofList (marks.toList ++ rest.toList) := by
    rw [← String.toList_append, String.ofList_toList]
  rw [whole]
  exact passed marks.toList blank.2

/-- A word ends where marks begin. -/
theorem words_cons (word : IsWord text) (blank : AreMarks marks) (rest : String) :
    words (text ++ (marks ++ rest)) = text :: words rest := by
  obtain ⟨c, more, split⟩ := List.exists_cons_of_ne_nil (toList_ne_nil blank.1)
  have mark : isMark c = true := blank.2 c (split ▸ List.mem_cons_self)
  rw [← words_marks blank rest]
  unfold words
  rw [String.toList_append, String.toList_append, split, List.cons_append,
    List.splitOnP_append_cons_of_forall_mem word.2 c mark, List.splitOnP_cons_eq_if_modifyHead,
    if_pos mark]
  simp [toList_ne_nil word.1]

theorem words_ended (word : IsWord text) (blank : AreMarks marks) :
    words (text ++ marks) = [text] := by
  have ended := words_cons word blank ""
  rwa [String.append_empty, words_empty] at ended

/-! ## Digits -/

theorem digitChar_injective_below :
    ∀ m < 16, ∀ n < 16, Nat.digitChar m = Nat.digitChar n → m = n := by
  decide

theorem isMark_digitChar : ∀ n < 16, isMark (Nat.digitChar n) = false := by
  decide

section

variable {base : Nat} (atLeast : 1 < base) (atMost : base ≤ 16)

include atLeast atMost

/-- No two numbers have the same digits. -/
theorem toDigits_injective : Function.Injective (Nat.toDigits base) := by
  intro m n same
  have below : ∀ k, k % base < base := fun k => Nat.mod_lt k (by omega)
  have nonempty : ∀ k, 0 < (Nat.toDigits base k).length := fun k => Nat.length_toDigits_pos
  induction m using Nat.strongRecOn generalizing n with
  | ind m ih =>
    have mQuotient := nonempty (m / base)
    have nQuotient := nonempty (n / base)
    rw [Nat.toDigits_eq_if atLeast, Nat.toDigits_eq_if atLeast (n := n)] at same
    split at same <;> split at same
    · exact digitChar_injective_below m (by omega) n (by omega) (List.singleton_inj.1 same)
    · have lengths := congrArg List.length same
      simp only [List.length_append, List.length_singleton] at lengths
      omega
    · have lengths := congrArg List.length same
      simp only [List.length_append, List.length_singleton] at lengths
      omega
    · -- both have several digits: the last ones agree, and so do the ones before
      obtain ⟨leading, last⟩ := List.append_inj' same rfl
      have quotients := ih (m / base) (Nat.div_lt_self (by omega) atLeast) leading
      have mBelow := below m
      have nBelow := below n
      have remainders := digitChar_injective_below (m % base) (by omega) (n % base) (by omega)
        (List.singleton_inj.1 last)
      rw [← Nat.div_add_mod m base, ← Nat.div_add_mod n base, quotients, remainders]

theorem isMark_of_mem_toDigits {n : Nat} {c : Char} (member : c ∈ Nat.toDigits base n) :
    isMark c = false := by
  induction n using Nat.strongRecOn with
  | ind n ih =>
    rw [Nat.toDigits_eq_if atLeast] at member
    split at member
    · rw [List.mem_singleton.1 member]
      exact isMark_digitChar n (by omega)
    · have below : n % base < base := Nat.mod_lt n (by omega)
      rcases List.mem_append.1 member with leading | last
      · exact ih (n / base) (Nat.div_lt_self (by omega) atLeast) leading
      · rw [List.mem_singleton.1 last]
        exact isMark_digitChar (n % base) (by omega)

end

/-! ## Numbers -/

theorem isMark_of_mem_toString {n : Nat} {c : Char} (member : c ∈ (toString n).toList) :
    isMark c = false := by
  rw [Nat.toString_eq_repr, Nat.toList_repr] at member
  exact isMark_of_mem_toDigits (by decide) (by decide) member

theorem repr_injective : Function.Injective Nat.repr := by
  intro m n same
  have digits := congrArg String.toList same
  rw [Nat.toList_repr, Nat.toList_repr] at digits
  exact toDigits_injective (by decide) (by decide) digits

/-- No number without a sign starts with one. -/
theorem repr_ne_minus (n : Nat) (rest : String) : n.repr ≠ "-" ++ rest := by
  intro same
  have member : '-' ∈ n.repr.toList := by
    rw [same, String.toList_append]
    exact List.mem_cons_self
  rw [Nat.toList_repr] at member
  exact absurd (Nat.isDigit_of_mem_toDigits (by decide) (by decide) member) (by decide)

theorem intRepr_injective : Function.Injective Int.repr := by
  rintro (m | m) (n | n) same
  · exact congrArg Int.ofNat (repr_injective same)
  · exact absurd same (repr_ne_minus m _)
  · exact absurd same.symm (repr_ne_minus n _)
  · have successors := repr_injective ((String.append_right_inj "-").1 same)
    exact congrArg Int.negSucc (Nat.succ.inj successors)

theorem hexText_injective : Function.Injective hexText := by
  intro m n same
  have digits := String.ofList_injective ((String.append_right_inj _).1 same)
  exact toDigits_injective (by decide) (by decide) digits

/-! ## Operands -/

theorem isWord_append {start rest : String} (word : IsWord start)
    (plain : ∀ c ∈ rest.toList, isMark c = false) : IsWord (start ++ rest) := by
  refine ⟨fun empty => word.1 (String.append_eq_empty_iff.1 empty).1, fun c member => ?_⟩
  rw [String.toList_append] at member
  exact (List.mem_append.1 member).elim (word.2 c) (plain c)

@[simp] theorem isWord_nat (n : Nat) : IsWord (toString n) := by
  refine ⟨?_, fun c => isMark_of_mem_toString⟩
  rw [Nat.toString_eq_repr]
  exact Nat.repr_ne_empty

@[simp] theorem isWord_int (n : Int) : IsWord n.repr := by
  cases n with
  | ofNat n => exact isWord_nat n
  | negSucc n => exact isWord_append (by decide) fun c => isMark_of_mem_toString

@[simp] theorem isWord_hexText (n : Nat) : IsWord (hexText n) := by
  refine isWord_append (by decide) fun c member => ?_
  rw [String.toList_ofList] at member
  exact isMark_of_mem_toDigits (by decide) (by decide) member

@[simp] theorem Temp.isWord_text (temp : Temp) : IsWord temp.text :=
  isWord_append (by decide) fun _ => isMark_of_mem_toString

@[simp] theorem Label.isWord_text (label : Label) : IsWord label.text :=
  isWord_append (by decide) fun _ => isMark_of_mem_toString

@[simp] theorem isWord_constantText (word : UInt64) : IsWord (constantText word) :=
  isWord_append (by decide) (isWord_hexText word.toNat).2

@[simp] theorem Operand.isWord_text (operand : Operand) : IsWord operand.text := by
  cases operand with
  | temp source => exact source.isWord_text
  | constant word => exact isWord_constantText word

@[simp] theorem StackField.isWord_text (field : StackField) : IsWord field.text := by
  cases field <;> decide

@[simp] theorem FramePart.isWord_text (part : FramePart) : IsWord part.text := by
  cases part <;> decide

@[simp] theorem Condition.isWord_text (condition : Condition) : IsWord condition.text := by
  cases condition <;> decide

@[simp] theorem Helper.isWord_text (helper : Helper) : IsWord helper.text := by
  cases helper <;> decide

theorem Temp.text_inj {temp other : Temp} : temp.text = other.text ↔ temp = other := by
  refine ⟨fun same => ?_, congrArg Temp.text⟩
  have numbers := repr_injective ((String.append_right_inj "t").1 same)
  cases temp
  cases other
  exact congrArg Temp.mk (UInt16.toNat_inj.1 numbers)

theorem Label.text_inj {label other : Label} : label.text = other.text ↔ label = other := by
  refine ⟨fun same => ?_, congrArg Label.text⟩
  have numbers := repr_injective ((String.append_right_inj "L").1 same)
  cases label
  cases other
  exact congrArg Label.mk (UInt16.toNat_inj.1 numbers)

theorem constantText_inj {word other : UInt64} :
    constantText word = constantText other ↔ word = other := by
  refine ⟨fun same => ?_, congrArg constantText⟩
  exact UInt64.toNat_inj.1 (hexText_injective ((String.append_right_inj "$").1 same))

theorem toString_toInt_inj {addend other : Int64} :
    toString addend.toInt = toString other.toInt ↔ addend = other :=
  intRepr_injective.eq_iff.trans Int64.toInt_inj

/-- A register is told from a constant by its first character. -/
theorem Operand.text_inj {operand other : Operand} :
    operand.text = other.text ↔ operand = other := by
  have apart : ∀ (source : Temp) (word : UInt64), source.text ≠ constantText word := by
    intro source word same
    have first := congrArg String.toList same
    simp [Temp.text, constantText] at first
  cases operand with
  | temp source =>
    cases other with
    | temp target => simp [Operand.text, Temp.text_inj]
    | constant word => simp [Operand.text, apart]
  | constant word =>
    cases other with
    | temp target => simp [Operand.text, (apart target word).symm]
    | constant target => simp [Operand.text, constantText_inj]

theorem StackField.text_inj {field other : StackField} :
    field.text = other.text ↔ field = other := by
  cases field <;> cases other <;> decide

theorem FramePart.text_inj {part other : FramePart} : part.text = other.text ↔ part = other := by
  cases part <;> cases other <;> decide

theorem Condition.text_inj {condition other : Condition} :
    condition.text = other.text ↔ condition = other := by
  cases condition <;> cases other <;> decide

theorem Helper.text_inj {helper other : Helper} : helper.text = other.text ↔ helper = other := by
  cases helper <;> cases other <;> decide

theorem Temp.text_ne_arrow (temp : Temp) : temp.text ≠ "->" := by
  intro same
  have first := congrArg String.toList same
  simp [Temp.text] at first

/-! ## Operations -/

def argumentWords : Option Temp → List String
  | none => []
  | some arg => [arg.text]

def destinationWords : Option Temp → List String
  | none => []
  | some dst => ["->", dst.text]

/-- The mnemonic of an operation and its operands; a label stands alone. -/
def Op.words : Op → List String
  | .loadField dst field => ["ld_env", dst.text, field.text]
  | .storeField field src => ["st_env", field.text, src.text]
  | .loadEntry dst index part => ["ld_entry", dst.text, index.text, part.text]
  | .storeEntry index part value => ["st_entry", index.text, part.text, value.text]
  | .loadSlot dst slot => ["ld_slot", dst.text, slot.text]
  | .setConstant dst word => ["movi", dst.text, constantText word]
  | .addConstant dst src addend => ["addi", dst.text, src.text, toString addend.toInt]
  | .branch condition lhs rhs target =>
    ["brcond", condition.text, lhs.text, rhs.text, "->", target.text]
  | .label place => [place.text]
  | .call helper arg dst => ["call", helper.text] ++ argumentWords arg ++ destinationWords dst
  | .leave target => ["goto_ptr", target.text]

/-- What is left of a call without its argument is no argument. -/
theorem operandWords_inj {arg arg' dst dst' : Option Temp} :
    argumentWords arg ++ destinationWords dst = argumentWords arg' ++ destinationWords dst' ↔
      arg = arg' ∧ dst = dst' := by
  have arrow : ∀ temp : Temp, "->" ≠ temp.text := fun temp => temp.text_ne_arrow.symm
  cases arg <;> cases arg' <;> cases dst <;> cases dst' <;>
    simp [argumentWords, destinationWords, Temp.text_inj, Temp.text_ne_arrow, arrow]

/-- The words of a line determine the operation. -/
theorem Op.words_injective : Function.Injective Op.words := by
  intro op other same
  -- lines of different kinds begin differently
  cases op <;> cases other <;>
    simp only [Op.words, List.cons_append, List.nil_append, List.cons.injEq, String.reduceEq,
      reduceCtorEq, and_true, true_and, and_false, false_and, Temp.text_inj, Label.text_inj,
      Operand.text_inj, StackField.text_inj, FramePart.text_inj, Condition.text_inj,
      Helper.text_inj, constantText_inj, toString_toInt_inj, operandWords_inj] at same
  all_goals simp only [same]

/-- An arrow is a word between blanks. -/
theorem arrow_append (rest : String) : " -> " ++ rest = " " ++ ("->" ++ (" " ++ rest)) := by
  simp only [← String.append_assoc, String.reduceAppend]

/-- A call without an argument or without a destination leaves that part out. -/
theorem words_operands (helper : Helper) (arg dst : Option Temp) :
    words (helper.text ++ (argumentText arg ++ destinationText dst)) =
      helper.text :: (argumentWords arg ++ destinationWords dst) := by
  cases arg <;> cases dst <;>
    simp +decide [words_cons, words_marks, words_ended, argumentText, destinationText,
      argumentWords, destinationWords, arrow_append, String.append_assoc]

/-- Breaking up the line of an operation gives its words. -/
theorem words_text (op : Op) : words op.text = op.words := by
  cases op with
  | loadField dst field =>
    have spelled : (Op.loadField dst field).text =
        "ld_env" ++ ("    " ++ (dst.text ++ (", " ++ field.text))) := by
      unfold Op.text
      simp only [← String.append_assoc, String.reduceAppend]
    rw [spelled]
    simp +decide [words_cons, Op.words]
  | storeField field src =>
    have spelled : (Op.storeField field src).text =
        "st_env" ++ ("    " ++ (field.text ++ (", " ++ src.text))) := by
      unfold Op.text
      simp only [← String.append_assoc, String.reduceAppend]
    rw [spelled]
    simp +decide [words_cons, Op.words]
  | loadEntry dst index part =>
    have spelled : (Op.loadEntry dst index part).text =
        "ld_entry" ++ ("  " ++ (dst.text ++ (", [" ++ (index.text ++ ("]." ++ part.text))))) := by
      unfold Op.text
      simp only [← String.append_assoc, String.reduceAppend]
    rw [spelled]
    simp +decide [words_cons, Op.words]
  | storeEntry index part value =>
    have spelled : (Op.storeEntry index part value).text =
        "st_entry" ++ ("  [" ++ (index.text ++ ("]." ++ (part.text ++ (", " ++ value.text))))) := by
      unfold Op.text
      simp only [← String.append_assoc, String.reduceAppend]
    rw [spelled]
    simp +decide [words_cons, Op.words]
  | loadSlot dst slot =>
    have spelled : (Op.loadSlot dst slot).text =
        "ld_slot" ++ ("   " ++ (dst.text ++ (", [" ++ (slot.text ++ "]")))) := by
      unfold Op.text
      simp only [← String.append_assoc, String.reduceAppend]
    rw [spelled]
    simp +decide [words_cons, words_ended, Op.words]
  | setConstant dst word =>
    have spelled : (Op.setConstant dst word).text =
        "movi" ++ ("      " ++ (dst.text ++ (", " ++ constantText word))) := by
      unfold Op.text
      simp only [← String.append_assoc, String.reduceAppend]
    rw [spelled]
    simp +decide [words_cons, Op.words]
  | addConstant dst src addend =>
    have spelled : (Op.addConstant dst src addend).text =
        "addi" ++ ("      " ++ (dst.text ++ (", " ++ (src.text ++ (", " ++
          toString addend.toInt))))) := by
      unfold Op.text
      simp only [← String.append_assoc, String.reduceAppend]
    rw [spelled]
    simp +decide [words_cons, Op.words]
  | branch condition lhs rhs target =>
    have spelled : (Op.branch condition lhs rhs target).text =
        "brcond" ++ ("    " ++ (condition.text ++ (" " ++ (lhs.text ++ (", " ++ (rhs.text ++
          (" -> " ++ target.text))))))) := by
      unfold Op.text
      simp only [← String.append_assoc, String.reduceAppend]
    rw [spelled]
    simp +decide [words_cons, arrow_append, Op.words]
  | label place =>
    have spelled : (Op.label place).text = place.text ++ ":" := rfl
    rw [spelled]
    simp +decide [words_ended, Op.words]
  | call helper arg dst =>
    have spelled : (Op.call helper arg dst).text =
        "call" ++ ("      " ++ (helper.text ++ (argumentText arg ++ destinationText dst))) := by
      unfold Op.text
      simp only [← String.append_assoc, String.reduceAppend]
    rw [spelled, words_cons (by decide) (by decide), words_operands]
    rfl
  | leave target =>
    have spelled : (Op.leave target).text = "goto_ptr" ++ ("  " ++ target.text) := by
      unfold Op.text
      simp only [← String.append_assoc, String.reduceAppend]
    rw [spelled]
    simp +decide [words_cons, Op.words]

theorem text_eq_iff {op other : Op} : op.text = other.text ↔ op = other := by
  refine ⟨fun same => Op.words_injective ?_, congrArg Op.text⟩
  rw [← words_text, ← words_text, same]

/-! ## Listings -/

theorem Op.text_ne_empty (op : Op) : op.text ≠ "" := by
  intro empty
  have noWords := words_text op
  rw [empty, words_empty] at noWords
  cases op <;> cases noWords

theorem IsWord.newline_not_mem (word : IsWord text) : '\n' ∉ text.toList := fun member =>
  absurd (word.2 '\n' member) (by decide)

/-- An operation is written on one line. -/
theorem newline_not_mem_text (op : Op) : '\n' ∉ op.text.toList := by
  unfold Op.text
  cases op with
  | call helper arg dst =>
    cases arg <;> cases dst <;>
      simp [argumentText, destinationText, IsWord.newline_not_mem]
  | _ => simp [IsWord.newline_not_mem]

/-- The lines of a text that joins them; no line is empty. -/
theorem lines_joined (ops : List Op) :
    (("\n".intercalate (ops.map Op.text)).toList.splitOn '\n').filter (· ≠ []) =
      ops.map (·.text.toList) := by
  rw [String.toList_intercalate, List.map_map]
  rcases eq_or_ne ops [] with rfl | nonempty
  · rfl
  · have single : ∀ line ∈ ops.map (String.toList ∘ Op.text), '\n' ∉ line := by
      intro line member
      obtain ⟨op, -, rfl⟩ := List.mem_map.1 member
      exact newline_not_mem_text op
    rw [show "\n".toList = ['\n'] from rfl,
      List.splitOn_intercalate '\n' single (mt List.map_eq_nil_iff.1 nonempty)]
    refine List.filter_eq_self.2 fun line member => ?_
    obtain ⟨op, -, rfl⟩ := List.mem_map.1 member
    exact decide_eq_true (toList_ne_nil op.text_ne_empty)

/-- No two operations are written alike, and no two operation lists have the same listing, neither
as lines nor as one text with the lines joined. -/
theorem listing_eq_iff :
    (∀ op other : Op, op.text = other.text ↔ op = other) ∧
      ∀ ops others : Array Op,
        (listing ops = listing others ↔ ops = others) ∧
        ("\n".intercalate (listing ops) = "\n".intercalate (listing others) ↔ ops = others) := by
  refine ⟨fun op other => text_eq_iff, fun ops others => ⟨?_, ?_⟩⟩
  · have lines : Function.Injective (List.map Op.text) :=
      List.map_injective_iff.2 fun _ _ => text_eq_iff.1
    exact lines.eq_iff.trans Array.toList_inj
  · refine ⟨fun same => Array.toList_inj.1 ?_, fun same => same ▸ rfl⟩
    have lines := congrArg (fun joined => (joined.toList.splitOn '\n').filter (· ≠ [])) same
    refine List.map_injective_iff.2 (fun op other same => ?_) ((lines_joined ops.toList).symm.trans
      (lines.trans (lines_joined others.toList)))
    exact text_eq_iff.1 (String.toList_inj.1 same)

end TransferCache.Code
