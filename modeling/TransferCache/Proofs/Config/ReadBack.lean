import TransferCache.Config.OfText
import TransferCache.Proofs.Config.Written
import TransferCache.Proofs.Document.Records

/-!
# Reading written configurations

A document that writes a configuration is read as that configuration, whatever freedom it takes.
While it is read, the fields named so far are those that are written, and the others have their
defaults; at the end this is known of all fields, because a field that was left out has its default.

* `Config.Agrees`: what is known of a configuration while it is read.
* `Config.sections_read`: the readers of the sections read what is written of them.
* `Config.ofText_of_writtenAs`: a written configuration is read back, and then its ranges are
  checked.
-/

namespace TransferCache

open Document

namespace Config

/-! ## What is known while reading -/

/-- The named fields are those of one configuration, and the others have their defaults. -/
def Agrees (written : Config) (Named : String → Prop) (config : Config) : Prop :=
  ∀ field ∈ allFields, (Named field.key → field.get config = field.get written) ∧
    (¬Named field.key → field.get config = field.get {})

variable {written config changed : Config} {Named : String → Prop}

/-- A field that is left out because it has its default is known as well. -/
theorem Agrees.widen {Other : String → Prop} (agrees : Agrees written Named config)
    (more : ∀ key, Named key → Other key)
    (omitted : ∀ field ∈ allFields, Other field.key →
      Named field.key ∨ field.get written = field.get {}) : Agrees written Other config := by
  intro field listed
  obtain ⟨known, unknown⟩ := agrees field listed
  by_cases named : Named field.key
  · exact ⟨fun _ => known named, fun unnamed => absurd (more _ named) unnamed⟩
  · refine ⟨fun other => ?_, fun _ => unknown named⟩
    exact (unknown named).trans ((omitted field listed other).resolve_left named).symm

theorem Agrees.congr {Other : String → Prop} (agrees : Agrees written Named config)
    (same : ∀ key, Named key ↔ Other key) : Agrees written Other config :=
  agrees.widen (fun key => (same key).1) fun field _ other => Or.inl ((same field.key).2 other)

/-- One more field is known once it has its value, if the others keep theirs. -/
theorem Agrees.change {key : String} (agrees : Agrees written Named config)
    (changes : ∀ field ∈ allFields,
      field.get changed = if field.key = key then field.get written else field.get config) :
    Agrees written (fun other => other = key ∨ Named other) changed := by
  intro field listed
  rw [changes field listed]
  split
  · exact ⟨fun _ => rfl, fun unnamed => absurd (Or.inl ‹_›) unnamed⟩
  · refine ⟨fun named => (agrees field listed).1 ?_, fun unnamed => (agrees field listed).2 ?_⟩
    · exact named.resolve_left ‹_›
    · exact fun named => unnamed (Or.inr named)

/-! ## The fields of a section -/

/-- What is known while a section is read, where `Outer` names what was known before. -/
def SectionHolds (written : Config) (Outer : String → Prop) (seen : List String)
    (config : Config) : Prop :=
  Agrees written (fun key => key ∈ seen ∨ Outer key) config

/-- A field is read if its value is, and only that field is changed. -/
theorem reads_of_reader (field : ConfigField) {reader : Reader field.Kind}
    (set : Config → field.Kind → Config)
    (read : ∀ {lead text rest : List Char}, Blanks lead → field.Writes (field.get written) text →
      NumberEnds rest → reader (lead ++ (text ++ rest)) = .ok (field.get written, rest))
    (changes : ∀ config, ∀ other ∈ allFields, other.get (set config (field.get written)) =
      if other.key = field.key then other.get written else other.get config)
    (Outer : String → Prop) :
    RecordField.Reads (SectionHolds written Outer)
      ⟨field.key, fun config => do return set config (← reader)⟩ (field.form written) := by
  refine ⟨rfl, ?_⟩
  intro seen config lead text rest _ agrees leading writes ends
  refine ⟨set config (field.get written), bind_of_ok (read leading writes ends), ?_⟩
  refine (agrees.change (changes config)).congr fun other => ?_
  rw [List.mem_cons, or_assoc]

theorem boolean_append (value : Bool) {lead : List Char} (leading : Blanks lead)
    (rest : List Char) :
    boolean (lead ++ ((if value then "true" else "false").toList ++ rest)) = .ok (value, rest) := by
  unfold boolean
  cases value with
  | true =>
    have word : exactly "true".toList ("true".toList ++ rest) = .ok ((), rest) :=
      exactly_append _ rest
    have seen : peek (lead ++ ("true".toList ++ rest)) = .ok ('t', "true".toList ++ rest) :=
      leading.peek_append rfl _
    rw [if_pos rfl, bind_of_ok seen, if_pos rfl, bind_of_ok word]
    rfl
  | false =>
    have word : exactly "false".toList ("false".toList ++ rest) = .ok ((), rest) :=
      exactly_append _ rest
    have seen : peek (lead ++ ("false".toList ++ rest)) = .ok ('f', "false".toList ++ rest) :=
      leading.peek_append rfl _
    rw [if_neg Bool.false_ne_true, bind_of_ok seen, if_neg (by decide), if_pos rfl, bind_of_ok word]
    rfl

theorem size_append (value : UInt64) {lead rest : List Char} (leading : Blanks lead)
    (ends : NumberEnds rest) :
    size (lead ++ (Nat.toDigits 10 value.toNat ++ rest)) = .ok (value, rest) := by
  have fits : value.toNat ≤ UInt64.size - 1 := Nat.le_sub_one_of_lt value.toNat_lt
  unfold size
  rw [bind_of_ok (natural_append fits (Nat.le_refl _) leading ends)]
  exact congrArg (fun value => Except.ok (value, rest)) UInt64.ofNat_toNat

theorem tableBits_append (value : UInt32) {lead rest : List Char} (leading : Blanks lead)
    (ends : NumberEnds rest) :
    tableBits (lead ++ (Nat.toDigits 10 value.toNat ++ rest)) = .ok (value, rest) := by
  have fits : value.toNat ≤ UInt32.size - 1 := Nat.le_sub_one_of_lt value.toNat_lt
  unfold tableBits
  rw [bind_of_ok (natural_append fits (by decide) leading ends)]
  exact congrArg (fun value => Except.ok (value, rest)) UInt32.ofNat_toNat

/-- A policy is known by any of its spellings. -/
theorem ofName?_of_mem_spellings {policy : OverflowPolicy} {name : String}
    (spelling : name ∈ policy.spellings) : OverflowPolicy.ofName? name = some policy := by
  have all : ∀ policy : OverflowPolicy, ∀ name ∈ policy.spellings,
      OverflowPolicy.ofName? name = some policy := by
    rintro (_ | _) <;> decide
  exact all policy name spelling

theorem policy_append {policy : OverflowPolicy} {name : String}
    (spelling : name ∈ policy.spellings) {lead quoted : List Char} (leading : Blanks lead)
    (writes : WrittenText name.toList quoted) (rest : List Char) :
    OverflowPolicy.read (lead ++ ('"' :: quoted ++ rest)) = .ok (policy, rest) := by
  unfold OverflowPolicy.read
  rw [List.cons_append, bind_of_ok (leading.peek_append rfl _), if_pos rfl,
    bind_of_ok (advance_cons _ _)]
  unfold OverflowPolicy.readName
  rw [bind_of_ok (writes.quoted_append rest), ofName?_of_mem_spellings spelling]
  rfl

theorem general_reads (written : Config) (Outer : String → Prop) :
    List.Forall₂ (RecordField.Reads (SectionHolds written Outer)) generalFields
      (ConfigSection.general.fields.map (·.form written)) := by
  refine .cons (reads_of_reader (.flag "trace_transfers" traceTransfers)
    (fun config value => { config with traceTransfers := value }) ?_ ?_ Outer) .nil
  · rintro lead text rest leading rfl -
    exact boolean_append written.traceTransfers leading rest
  · intro config
    exact forall_mem_allFields.2 ⟨rfl, rfl, rfl, rfl, rfl, rfl⟩

theorem shadow_reads (written : Config) (Outer : String → Prop) :
    List.Forall₂ (RecordField.Reads (SectionHolds written Outer)) shadowFields
      (ConfigSection.shadow.fields.map (·.form written)) := by
  refine .cons (reads_of_reader (.size "stack_size" stackSize)
    (fun config value => { config with stackSize := value }) ?_ ?_ Outer) <|
    .cons (reads_of_reader (.size "slot_capacity" slotCapacity)
      (fun config value => { config with slotCapacity := value }) ?_ ?_ Outer) <|
    .cons (reads_of_reader (.tableBits "link_table_bits" linkTableBits)
      (fun config value => { config with linkTableBits := value }) ?_ ?_ Outer) <|
    .cons (reads_of_reader (.policy "overflow" overflow)
      (fun config value => { config with overflow := value }) ?_ ?_ Outer) .nil
  · rintro lead text rest leading rfl ends
    exact size_append written.stackSize leading ends
  · intro config
    exact forall_mem_allFields.2 ⟨rfl, rfl, rfl, rfl, rfl, rfl⟩
  · rintro lead text rest leading rfl ends
    exact size_append written.slotCapacity leading ends
  · intro config
    exact forall_mem_allFields.2 ⟨rfl, rfl, rfl, rfl, rfl, rfl⟩
  · rintro lead text rest leading rfl ends
    exact tableBits_append written.linkTableBits leading ends
  · intro config
    exact forall_mem_allFields.2 ⟨rfl, rfl, rfl, rfl, rfl, rfl⟩
  · rintro lead text rest leading ⟨name, spelling, quoted, writes, rfl⟩ -
    exact policy_append spelling leading writes rest
  · intro config
    exact forall_mem_allFields.2 ⟨rfl, rfl, rfl, rfl, rfl, rfl⟩

theorem ibtc_reads (written : Config) (Outer : String → Prop) :
    List.Forall₂ (RecordField.Reads (SectionHolds written Outer)) ibtcFields
      (ConfigSection.ibtc.fields.map (·.form written)) := by
  refine .cons (reads_of_reader (.tableBits "index_bits" indexBits)
    (fun config value => { config with indexBits := value }) ?_ ?_ Outer) .nil
  · rintro lead text rest leading rfl ends
    exact tableBits_append written.indexBits leading ends
  · intro config
    exact forall_mem_allFields.2 ⟨rfl, rfl, rfl, rfl, rfl, rfl⟩

/-! ## Whole documents -/

/-- The keys of the fields of the sections with the given keys. -/
def Sectioned (seen : List String) (key : String) : Prop :=
  ∃ part ∈ layout, part.key ∈ seen ∧ key ∈ part.fields.map (·.key)

theorem sectioned_cons {part : ConfigSection} (listed : part ∈ layout) (seen : List String)
    (key : String) :
    Sectioned (part.key :: seen) key ↔ key ∈ part.fields.map (·.key) ∨ Sectioned seen key := by
  constructor
  · rintro ⟨other, otherListed, named, inside⟩
    rcases List.mem_cons.1 named with sameKey | earlier
    · have same := List.inj_on_of_nodup_map nodup_layout otherListed listed sameKey
      exact Or.inl (same ▸ inside)
    · exact Or.inr ⟨other, otherListed, earlier, inside⟩
  · rintro (inside | ⟨other, otherListed, earlier, inside⟩)
    · exact ⟨part, listed, List.mem_cons_self, inside⟩
    · exact ⟨other, otherListed, List.mem_cons_of_mem _ earlier, inside⟩

/-- No two sections have a field of the same key. -/
theorem mem_fields_of_key {part : ConfigSection} (listed : part ∈ layout) {field : ConfigField}
    (known : field ∈ allFields) (named : field.key ∈ part.fields.map (·.key)) :
    field ∈ part.fields := by
  obtain ⟨other, inside, sameKey⟩ := List.mem_map.1 named
  have same := List.inj_on_of_nodup_map nodup_allFields
    (List.mem_flatMap.2 ⟨part, listed, inside⟩) known sameKey
  exact same ▸ inside

/-- A section is read, and then its fields are known. -/
theorem section_reads {part : ConfigSection} (listed : part ∈ layout)
    {fields : List (RecordField Config)}
    (reads : ∀ Outer, List.Forall₂ (RecordField.Reads (SectionHolds written Outer)) fields
      (part.fields.map (·.form written))) :
    RecordField.Reads (fun seen => Agrees written (Sectioned seen)) ⟨part.key, record fields⟩
      (part.form written) := by
  refine ⟨rfl, ?_⟩
  intro seen config lead text rest _ agrees leading writes _
  have distinct : ((part.fields.map (·.form written)).map (·.key)).Nodup := by
    rw [List.map_map]
    exact nodup_fields listed
  have start : SectionHolds written (Sectioned seen) [] config :=
    agrees.congr fun key => (or_iff_right List.not_mem_nil).symm
  obtain ⟨noted, result, read, holds, fromSection, complete⟩ :=
    writes.record_append (reads (Sectioned seen)) distinct leading start rest
  refine ⟨result, read, holds.widen ?_ ?_⟩
  · rintro key (named | earlier)
    · obtain ⟨form, isForm, rfl⟩ := fromSection key named
      obtain ⟨field, inside, rfl⟩ := List.mem_map.1 isForm
      exact (sectioned_cons listed seen _).2 (Or.inl (List.mem_map_of_mem inside))
    · exact (sectioned_cons listed seen key).2 (Or.inr earlier)
  · -- A field of the section was read or has its default; the others are as they were.
    intro field known named
    rcases (sectioned_cons listed seen field.key).1 named with inside | earlier
    · have inside := mem_fields_of_key listed known inside
      exact (complete (field.form written) (List.mem_map_of_mem inside)).imp Or.inl id
    · exact Or.inl (Or.inr earlier)

theorem sections_read (written : Config) :
    List.Forall₂ (RecordField.Reads fun seen => Agrees written (Sectioned seen)) sections
      (layout.map (·.form written)) := by
  refine .cons ?_ (.cons ?_ (.cons ?_ .nil))
  · exact section_reads (by simp [layout]) (general_reads written)
  · exact section_reads (by simp [layout]) (shadow_reads written)
  · exact section_reads (by simp [layout]) (ibtc_reads written)

/-- What a document writes is what it says. -/
theorem decode_of_writtenAs {config : Config} {text : String}
    (written : config.WrittenAs text.toList) : decode text = .ok config := by
  obtain ⟨before, object, after, parts, blank, writes, blankAfter⟩ := written
  have distinct : ((layout.map (·.form config)).map (·.key)).Nodup := by
    rw [List.map_map]
    exact nodup_layout
  have start : Agrees config (Sectioned []) {} := by
    rintro field known
    refine ⟨?_, fun _ => rfl⟩
    rintro ⟨part, -, named, -⟩
    cases named
  obtain ⟨noted, result, read, holds, -, complete⟩ :=
    writes.record_append (sections_read config) distinct blank start after
  have everything : Agrees config (fun _ => True) result := by
    refine holds.widen (fun _ _ => trivial) fun field known _ => ?_
    obtain ⟨part, listed, inside⟩ := List.mem_flatMap.1 known
    rcases complete (part.form config) (List.mem_map_of_mem listed) with named | omissible
    · exact Or.inl ⟨part, listed, named, List.mem_map_of_mem inside⟩
    · exact Or.inr (omissible field inside)
  have same : result = config :=
    eq_of_get_eq fun field known => (everything field known).1 trivial
  unfold decode
  rw [parts, read, same]
  dsimp only
  rw [if_pos blankAfter.dropBlank_eq_nil]

/-- Every accepted configuration can be had from a document. -/
theorem exists_ofText_eq_ok {config : Config} (accepted : config.validate = .ok ()) :
    ∃ text, ofText text = .ok config := by
  obtain ⟨text, written⟩ := config.exists_writtenAs
  refine ⟨text, ?_⟩
  unfold ofText
  rw [decode_of_writtenAs written]
  dsimp only
  rw [accepted]

/-- A document that writes a configuration, in whatever order, without what has its default, and
with anything under keys that are no field's, is read as exactly that configuration if its ranges
are accepted, and otherwise rejected for the range that is not. -/
theorem ofText_of_writtenAs {config : Config} {text : String}
    (written : config.WrittenAs text.toList) :
    ofText text =
      match config.validate with
      | .ok () => .ok config
      | .error fault => .error (.invalid fault) := by
  unfold ofText
  rw [decode_of_writtenAs written]
  dsimp only
  cases config.validate with
  | error => rfl
  | ok => rfl

/-- The last section comes first and the first one is left out, a key has an escape, and under a key
that is no field's there is a value that nests and holds half of a surrogate pair. -/
def nesting : String :=
  "\x7b\"ibtc\": \x7b\"?\": [\x7b\"\\uD800\": -0.5e9\x7d, []], \"index_bits\": 24\x7d, " ++
    "\"sh\\u0061dow\": \x7b\"overflow\": \"wrap\"\x7d\x7d"

/-- What that document writes. -/
def wrapping : Config := { overflow := .wrap, indexBits := 24 }

/-- The value under the unknown key is well-formed. -/
theorem valid_ignored : Valid .value "[\x7b\"\\uD800\": -0.5e9\x7d, []]".toList := by
  have none : Blanks [] := by decide
  have space : Blanks [' '] := by decide
  have half : HexQuad 0xd800 ['D', '8', '0', '0'] :=
    @HexQuad.digits 13 8 0 0 _ _ _ _ (by decide) (by decide) (by decide) (by decide)
  have number : NumberText (['-'] ++ (['0'] ++ (['.', '5'] ++ ['e', '9']))) :=
    .parts (by decide) ⟨⟨nofun, by simp⟩, fun _ => rfl⟩ (.digits ⟨nofun, by simp⟩)
      (@Exponent.digits 'e' [] ['9'] (Or.inl rfl) (by decide) ⟨nofun, by simp⟩)
  have inner : Valid .value _ :=
    .filled (.last (.record none (.cons (.unit half) .nil) none) space (.number number) none)
  exact .filled (.next .list none inner none (.last .list space (@Valid.empty .list [] none) none))

theorem wrapping_writtenAs : wrapping.WrittenAs nesting.toList := by
  have none : Blanks [] := by decide
  have space : Blanks [' '] := by decide
  have letter : HexQuad 'a'.toNat ['0', '0', '6', '1'] :=
    @HexQuad.digits 0 0 6 1 _ _ _ _ (by decide) (by decide) (by decide) (by decide)
  have unknown : Member (ConfigSection.ibtc.fields.map (·.form wrapping)) "?" _ :=
    .parts none (writtenText_of_plain (by decide)) none space
      (.other (by decide) valid_ignored) none
  have bits : Member (ConfigSection.ibtc.fields.map (·.form wrapping)) "index_bits" _ :=
    .parts space (writtenText_of_plain (by decide)) none space
      (@MemberValue.field _ _ ['2', '4'] List.mem_cons_self rfl) none
  have policy : Member (ConfigSection.shadow.fields.map (·.form wrapping)) "overflow" _ :=
    .parts none (writtenText_of_plain (by decide)) none space
      (@MemberValue.field _ ((ConfigField.policy "overflow" overflow).form wrapping) _
        (by simp [ConfigSection.shadow])
        ⟨"wrap", by decide, _, writtenText_of_plain (by decide), rfl⟩) none
  have ibtc : Member (layout.map (·.form wrapping)) "ibtc" _ :=
    .parts none (writtenText_of_plain (by decide)) none space
      (@MemberValue.field _ (ConfigSection.ibtc.form wrapping) _ (by simp [layout])
        ⟨_, .filled (.next unknown (.last bits)), by
          simp [ConfigSection.ibtc, ConfigField.form, ConfigField.tableBits]⟩) none
  have shadow : Member (layout.map (·.form wrapping)) "shadow" _ :=
    .parts space (.cons (.plain (by decide)) (.cons (.plain (by decide)) (.cons (.unit letter)
      (writtenText_of_plain (by decide : "dow".toList.all (Plain ·) = true))))) none space
      (@MemberValue.field _ (ConfigSection.shadow.form wrapping) _ (by simp [layout])
        ⟨_, .filled (.last policy), by
          simp [ConfigSection.shadow, ConfigField.form, ConfigField.tableBits, ConfigField.size,
            ConfigField.policy, wrapping]⟩) none
  refine ⟨[], _, [], rfl, none, ⟨["ibtc", "shadow"], .filled (.next ibtc (.last shadow)), ?_⟩, none⟩
  simp [layout, ConfigSection.form, ConfigSection.general, ConfigSection.shadow,
    ConfigSection.ibtc, ConfigField.form, ConfigField.flag, wrapping]

/-- The value under the unknown key is passed over, and what is left out has its default. -/
theorem ofText_nesting :
    wrapping.WrittenAs nesting.toList ∧ wrapping.validate = .ok () ∧
      ofText nesting = .ok wrapping := by
  have accepted : wrapping.validate = .ok () := by decide
  have read := ofText_of_writtenAs wrapping_writtenAs
  rw [accepted] at read
  exact ⟨wrapping_writtenAs, accepted, read⟩

end Config

end TransferCache
