import Mathlib.Data.List.Forall2
import TransferCache.Document.Record
import TransferCache.Proofs.Document.Skipping

/-!
# Reading records

An object that writes the fields of a record is read whatever the order of its members is and
whatever stands under other keys. What is known of the record grows with every field that is read;
the development is about any such knowledge, given by the keys of the fields read so far.

* `RecordField.Reads`: what the reader of one field has to do.
* `Member.members_append`: one member is read, or passed over.
* `WrittenRecord.record_append`: so is the whole object.
-/

namespace TransferCache.Document

variable {σ : Type} {Holds : List String → σ → Prop} {fields : List (RecordField σ)}
  {forms : List FieldForm} {rest : List Char}

/-! ## Fields -/

/-- A reader that reads any value of the form, and then what holds of the record is what holds once
the field is read. -/
def RecordField.Reads (Holds : List String → σ → Prop) (field : RecordField σ)
    (form : FieldForm) : Prop :=
  field.key = form.key ∧
    ∀ {seen : List String} {record : σ} {lead value rest : List Char},
      field.key ∉ seen → Holds seen record → Blanks lead → form.Writes value → NumberEnds rest →
      ∃ changed, field.read record (lead ++ (value ++ rest)) = .ok (changed, rest) ∧
        Holds (field.key :: seen) changed

/-- A field is found by its key. -/
theorem find?_of_mem (reads : List.Forall₂ (RecordField.Reads Holds) fields forms)
    (distinct : (forms.map (·.key)).Nodup) {form : FieldForm} (listed : form ∈ forms) :
    ∃ field, fields.find? (fun field => field.key = form.key) = some field ∧
      field.Reads Holds form := by
  induction reads with
  | nil => cases listed
  | @cons field other fields forms reads _ ih =>
    rw [List.map_cons, List.nodup_cons] at distinct
    rcases List.mem_cons.1 listed with rfl | later
    · exact ⟨field, List.find?_cons_of_pos (decide_eq_true reads.1), reads⟩
    · have apart : field.key ≠ form.key := fun same =>
        distinct.1 (List.mem_map.2 ⟨form, later, same.symm.trans reads.1⟩)
      obtain ⟨found, isFound, does⟩ := ih distinct.2 later
      exact ⟨found, (List.find?_cons_of_neg (by simp [apart])).trans isFound, does⟩

theorem find?_eq_none (reads : List.Forall₂ (RecordField.Reads Holds) fields forms) {key : String}
    (other : ∀ form ∈ forms, form.key ≠ key) :
    fields.find? (fun field => field.key = key) = none := by
  induction reads with
  | nil => rfl
  | @cons field form fields forms reads _ ih =>
    have apart : field.key ≠ key := fun same =>
      other form List.mem_cons_self (reads.1.symm.trans same)
    refine (List.find?_cons_of_neg (by simp [apart])).trans (ih fun form later => ?_)
    exact other form (List.mem_cons_of_mem _ later)

/-- What was seen before is still seen, and of the keys those that name a field. -/
def Noted (forms : List FieldForm) (keys before after : List String) : Prop :=
  ∀ key, key ∈ after ↔ key ∈ before ∨ key ∈ keys ∧ ∃ form ∈ forms, form.key = key

theorem Noted.cons {key : String} {keys before between after : List String}
    (first : Noted forms [key] before between) (rest : Noted forms keys between after) :
    Noted forms (key :: keys) before after := by
  intro other
  rw [rest other, first other, List.mem_singleton, List.mem_cons, or_and_right, or_assoc]

/-- No field is named by two of the keys, or by one of them and by what was seen. -/
def NamesOnce (forms : List FieldForm) (seen keys : List String) : Prop :=
  ∀ form ∈ forms, keys.count form.key ≤ 1 ∧ (form.key ∈ seen → form.key ∉ keys)

theorem NamesOnce.tail {key : String} {keys before after : List String}
    (once : NamesOnce forms before (key :: keys)) (noted : Noted forms [key] before after) :
    NamesOnce forms after keys := by
  intro form listed
  obtain ⟨count, fresh⟩ := once form listed
  refine ⟨Nat.le_trans List.count_le_count_cons count, fun seen member => ?_⟩
  rcases (noted form.key).1 seen with earlier | ⟨now, -⟩
  · exact fresh earlier (List.mem_cons_of_mem _ member)
  · have positive := List.count_pos_iff.2 member
    rw [List.mem_singleton.1 now] at count positive
    rw [List.count_cons_self] at count
    omega

/-! ## Members -/

/-- What stands before a member, other than its own blanks. -/
inductive Lead : Bool → List Char → Prop
  | start : Lead true []
  | comma {blanks : List Char} : Blanks blanks → Lead false (blanks ++ [','])

theorem memberKey_append {first : Bool} {lead before text : List Char} {key : String}
    (leads : Lead first lead) (blank : Blanks before) (writes : WrittenText key.toList text)
    (rest : List Char) :
    memberKey first (lead ++ (before ++ '"' :: (text ++ rest))) = .ok (some key, rest) := by
  have named (lead : List Char) (leading : Blanks lead) :
      (do expect '"'; return some (← quoted)) (lead ++ '"' :: (text ++ rest)) =
        (.ok (some key, rest) : Except Rejection (Option String × List Char)) := by
    rw [bind_of_ok (leading.expect_append rfl _), bind_of_ok (writes.quoted_append rest)]
    rfl
  have none : Blanks [] := fun _ => nofun
  unfold memberKey
  cases leads with
  | start =>
    rw [List.nil_append, bind_of_ok (blank.peek_append rfl _), if_neg (by decide)]
    exact named [] none
  | @comma blanks leading =>
    rw [List.append_assoc, List.singleton_append, bind_of_ok (leading.peek_append rfl _),
      if_neg (by decide)]
    have comma : expect ',' (',' :: (before ++ '"' :: (text ++ rest))) =
        .ok ((), before ++ '"' :: (text ++ rest)) := none.expect_append rfl _
    exact (bind_of_ok comma).trans (named before blank)

theorem memberKey_end (first : Bool) {blanks : List Char} (blank : Blanks blanks)
    (rest : List Char) : memberKey first (blanks ++ '\x7d' :: rest) = .ok (none, rest) := by
  unfold memberKey
  rw [bind_of_ok (blank.peek_append rfl rest), if_pos rfl]
  rfl

theorem members_end {budget : List Char} (enough : 0 < budget.length) (first : Bool)
    (seen : List String) (record : σ) {blanks : List Char} (blank : Blanks blanks)
    (rest : List Char) :
    members fields budget first seen record (blanks ++ '\x7d' :: rest) = .ok (record, rest) := by
  obtain ⟨step, budget, rfl⟩ := List.exists_cons_of_length_pos enough
  rw [members, bind_of_ok (memberKey_end first blank rest)]
  rfl

theorem noted_of_field {form : FieldForm} (listed : form ∈ forms) (seen : List String) :
    Noted forms [form.key] seen (form.key :: seen) := by
  intro key
  rw [List.mem_cons, List.mem_singleton, or_comm]
  refine or_congr Iff.rfl ⟨fun same => ⟨same, form, listed, same.symm⟩, And.left⟩

theorem noted_of_other {key : String} (unlisted : ∀ form ∈ forms, form.key ≠ key)
    (seen : List String) : Noted forms [key] seen seen := by
  refine fun other => ⟨Or.inl, ?_⟩
  rintro (known | ⟨same, form, listed, named⟩)
  · exact known
  · exact absurd (named.trans (List.mem_singleton.1 same)) (unlisted form listed)

theorem Member.length_pos {key : String} {text : List Char} (member : Member forms key text) :
    0 < text.length := by
  cases member
  simp only [List.length_append, List.length_cons]
  omega

/-- A member is read if it names a field, and passed over otherwise. What follows it is still
preceded by its last blanks. -/
theorem Member.members_append (reads : List.Forall₂ (RecordField.Reads Holds) fields forms)
    (distinct : (forms.map (·.key)).Nodup) {first : Bool} {lead text : List Char} {key : String}
    (leads : Lead first lead) (member : Member forms key text) (ends : NumberEnds rest)
    {seen keys : List String} (once : NamesOnce forms seen (key :: keys)) {record : σ}
    (holds : Holds seen record) (step : Char) (budget : List Char) :
    ∃ noted changed after, Noted forms [key] seen noted ∧ Holds noted changed ∧ Blanks after ∧
      members fields (step :: budget) first seen record (lead ++ (text ++ rest)) =
        members fields budget false noted changed (after ++ rest) := by
  cases member with
  | @parts before text colon gap value after blank writes blankColon blankGap isValue blankAfter =>
    have endsAfter := NumberEnds.append_blanks blankAfter ends
    have named := memberKey_append leads blank writes
      (colon ++ ':' :: (gap ++ (value ++ (after ++ rest))))
    have marked : expect ':' (colon ++ ':' :: (gap ++ (value ++ (after ++ rest)))) =
        .ok ((), gap ++ (value ++ (after ++ rest))) := blankColon.expect_append rfl _
    simp only [List.append_assoc, List.cons_append]
    rw [members, bind_of_ok named]
    dsimp only
    cases isValue with
    | @field form _ listed isWritten =>
      obtain ⟨field, found, sameKey, read⟩ := find?_of_mem reads distinct listed
      have fresh : form.key ∉ seen := fun known =>
        (once form listed).2 known List.mem_cons_self
      obtain ⟨changed, isRead, holdsNow⟩ :=
        read (sameKey ▸ fresh) holds blankGap isWritten endsAfter
      refine ⟨form.key :: seen, changed, after, noted_of_field listed seen, sameKey ▸ holdsNow,
        blankAfter, ?_⟩
      rw [found]
      dsimp only
      rw [if_neg fresh, bind_of_ok marked, bind_of_ok isRead]
    | other unlisted valid =>
      refine ⟨seen, record, after, noted_of_other unlisted seen, holds, blankAfter, ?_⟩
      rw [find?_eq_none reads unlisted]
      dsimp only
      rw [bind_of_ok marked, bind_of_ok (valid.skipValue_append blankGap endsAfter)]

/-- The members of an object are read to its closing bracket. -/
theorem Members.members_append (reads : List.Forall₂ (RecordField.Reads Holds) fields forms)
    (distinct : (forms.map (·.key)).Nodup) {first : Bool} {keys : List String}
    {lead items : List Char} (leads : Lead first lead) (written : Members forms keys items)
    {seen : List String} (once : NamesOnce forms seen keys) {record : σ}
    (holds : Holds seen record) {budget : List Char} (enough : items.length < budget.length)
    (rest : List Char) :
    ∃ noted result, Noted forms keys seen noted ∧ Holds noted result ∧
      members fields budget first seen record (lead ++ (items ++ '\x7d' :: rest)) =
        .ok (result, rest) := by
  induction written generalizing first lead seen record budget with
  | @last key text member =>
    have closes : NumberEnds ('\x7d' :: rest) := Bracket.numberEnds_closing .record rest
    have nonempty := member.length_pos
    obtain ⟨step, budget, rfl⟩ := List.exists_cons_of_length_pos (Nat.zero_lt_of_lt enough)
    obtain ⟨noted, changed, after, isNoted, holdsNow, blank, reached⟩ :=
      member.members_append reads distinct leads closes once holds step budget
    rw [List.length_cons] at enough
    have left : 0 < budget.length := by omega
    exact ⟨noted, changed, isNoted, holdsNow,
      reached.trans (members_end left false noted changed blank rest)⟩
  | @next key keys text more member written ih =>
    obtain ⟨step, budget, rfl⟩ := List.exists_cons_of_length_pos (Nat.zero_lt_of_lt enough)
    obtain ⟨between, changed, after, firstNoted, holdsNow, blank, reached⟩ :=
      member.members_append reads distinct leads (numberEnds_comma _) once holds step budget
    rw [List.length_append, List.length_cons, List.length_cons] at enough
    have fits : more.length < budget.length := by omega
    -- The blanks that this member ends with stand before the comma that leads the next.
    obtain ⟨noted, result, isNoted, holdsLast, readLast⟩ :=
      ih (.comma blank) (once.tail firstNoted) holdsNow fits
    refine ⟨noted, result, firstNoted.cons isNoted, holdsLast, ?_⟩
    rw [List.append_assoc, List.cons_append, reached]
    rwa [List.append_assoc, List.singleton_append] at readLast

theorem Object.members_append (reads : List.Forall₂ (RecordField.Reads Holds) fields forms)
    (distinct : (forms.map (·.key)).Nodup) {keys : List String} {text : List Char}
    (object : Object forms keys text) (once : NamesOnce forms [] keys) {start : σ}
    (holds : Holds [] start) (rest : List Char) :
    ∃ inside noted result, text ++ rest = '\x7b' :: inside ∧ Noted forms keys [] noted ∧
      Holds noted result ∧ members fields inside true [] start inside = .ok (result, rest) := by
  cases object with
  | @empty blanks blank =>
    have enough : 0 < (blanks ++ '\x7d' :: rest).length := by
      rw [List.length_append, List.length_cons]
      omega
    refine ⟨blanks ++ '\x7d' :: rest, [], start, ?_, ?_, holds,
      members_end enough true [] start blank rest⟩
    · rw [List.cons_append, List.append_assoc, List.singleton_append]
    · simp [Noted]
  | @filled _ items written =>
    have fits : items.length < (items ++ '\x7d' :: rest).length := by
      rw [List.length_append, List.length_cons]
      omega
    obtain ⟨noted, result, isNoted, holdsNow, read⟩ :=
      written.members_append reads distinct .start once holds fits rest
    refine ⟨items ++ '\x7d' :: rest, noted, result, ?_, isNoted, holdsNow, read⟩
    rw [List.cons_append, List.append_assoc, List.singleton_append]

/-- An object that writes a record is read to its end: every field was read, or may be left out. -/
theorem WrittenRecord.record_append (reads : List.Forall₂ (RecordField.Reads Holds) fields forms)
    (distinct : (forms.map (·.key)).Nodup) {lead text : List Char} (leading : Blanks lead)
    (written : WrittenRecord forms text) {start : σ} (holds : Holds [] start)
    (rest : List Char) :
    ∃ noted result, record fields start (lead ++ (text ++ rest)) = .ok (result, rest) ∧
      Holds noted result ∧ (∀ key ∈ noted, ∃ form ∈ forms, form.key = key) ∧
      ∀ form ∈ forms, form.key ∈ noted ∨ form.Omissible := by
  obtain ⟨keys, object, conditions⟩ := written
  have once : NamesOnce forms [] keys := fun form listed =>
    ⟨(conditions form listed).1, fun known => nomatch known⟩
  obtain ⟨inside, noted, result, opened, isNoted, holdsNow, read⟩ :=
    object.members_append reads distinct once holds rest
  refine ⟨noted, result, ?_, holdsNow, fun key known => ?_, fun form listed => ?_⟩
  · unfold record
    rw [opened, bind_of_ok (leading.peek_append rfl inside), if_pos rfl]
    exact (bind_of_ok (advance_cons '\x7b' inside)).trans read
  · rcases (isNoted key).1 known with none | ⟨-, isField⟩
    · cases none
    · exact isField
  · by_cases named : form.key ∈ keys
    · exact Or.inl ((isNoted form.key).2 (Or.inr ⟨named, form, listed, rfl⟩))
    · exact Or.inr ((conditions form listed).2 named)

end TransferCache.Document
