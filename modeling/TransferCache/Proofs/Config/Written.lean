import TransferCache.Config.Basic
import TransferCache.Proofs.Document.Grammar

/-!
# Written configurations

`Config.WrittenAs` says which documents write a configuration. Its sections and their fields are
given once, each field with the texts of its values. Any document is meant that writes them as
objects: with members in any order, without those that have their defaults, and with any values
under keys that are no field's.

* `Config.exists_writtenAs`: some document writes it, whatever the configuration is.
-/

namespace TransferCache

open Document

/-! ## What is written -/

/-- A field of a section, with the texts of its values. -/
structure ConfigField where
  key : String
  Kind : Type
  get : Config → Kind
  Writes : Kind → List Char → Prop

structure ConfigSection where
  key : String
  fields : List ConfigField

def OverflowPolicy.spellings : OverflowPolicy → List String
  | .reset => ["Reset", "RESET", "reset"]
  | .wrap => ["Wrap", "WRAP", "wrap"]

namespace ConfigField

def flag (key : String) (get : Config → Bool) : ConfigField :=
  ⟨key, Bool, get, fun value text => text = (if value then "true" else "false").toList⟩

def size (key : String) (get : Config → UInt64) : ConfigField :=
  ⟨key, UInt64, get, fun value text => text = Nat.toDigits 10 value.toNat⟩

def tableBits (key : String) (get : Config → UInt32) : ConfigField :=
  ⟨key, UInt32, get, fun value text => text = Nat.toDigits 10 value.toNat⟩

def policy (key : String) (get : Config → OverflowPolicy) : ConfigField :=
  ⟨key, OverflowPolicy, get, fun value text =>
    ∃ name ∈ value.spellings, ∃ quoted, WrittenText name.toList quoted ∧ text = '"' :: quoted⟩

/-- A field may be left out if it has its default. -/
def form (field : ConfigField) (config : Config) : FieldForm :=
  ⟨field.key, field.Writes (field.get config), field.get config = field.get {}⟩

end ConfigField

/-- A section may be left out if each of its fields may. -/
def ConfigSection.form (part : ConfigSection) (config : Config) : FieldForm :=
  ⟨part.key, WrittenRecord (part.fields.map (·.form config)),
    ∀ field ∈ part.fields, (field.form config).Omissible⟩

def ConfigSection.general : ConfigSection :=
  ⟨"general", [.flag "trace_transfers" Config.traceTransfers]⟩

def ConfigSection.shadow : ConfigSection :=
  ⟨"shadow", [.size "stack_size" Config.stackSize, .size "slot_capacity" Config.slotCapacity,
    .tableBits "link_table_bits" Config.linkTableBits, .policy "overflow" Config.overflow]⟩

def ConfigSection.ibtc : ConfigSection :=
  ⟨"ibtc", [.tableBits "index_bits" Config.indexBits]⟩

namespace Config

def layout : List ConfigSection := [.general, .shadow, .ibtc]

/-- The document writes this configuration. -/
def WrittenAs (config : Config) (text : List Char) : Prop :=
  ∃ before object after, text = before ++ (object ++ after) ∧ Blanks before ∧
    WrittenRecord (layout.map (·.form config)) object ∧ Blanks after

def allFields : List ConfigField := layout.flatMap (·.fields)

theorem forall_mem_allFields {Fits : ConfigField → Prop} :
    (∀ field ∈ allFields, Fits field) ↔
      Fits (.flag "trace_transfers" traceTransfers) ∧ Fits (.size "stack_size" stackSize) ∧
        Fits (.size "slot_capacity" slotCapacity) ∧
        Fits (.tableBits "link_table_bits" linkTableBits) ∧ Fits (.policy "overflow" overflow) ∧
        Fits (.tableBits "index_bits" indexBits) := by
  simp [allFields, layout, ConfigSection.general, ConfigSection.shadow, ConfigSection.ibtc]

/-- Configurations with the same fields are the same. -/
theorem eq_of_get_eq {left right : Config}
    (same : ∀ field ∈ allFields, field.get left = field.get right) : left = right := by
  obtain ⟨transfers, stack, slots, links, policy, index⟩ := forall_mem_allFields.1 same
  cases left
  cases right
  cases transfers
  cases stack
  cases slots
  cases links
  cases policy
  cases index
  rfl

/-- The sections have different keys. -/
theorem nodup_layout : (layout.map (·.key)).Nodup := by decide

/-- The fields have different keys, also across sections. -/
theorem nodup_allFields : (allFields.map (·.key)).Nodup := by decide

theorem nodup_fields {part : ConfigSection} (listed : part ∈ layout) :
    (part.fields.map (·.key)).Nodup := by
  have all : ∀ part ∈ layout, (part.fields.map (·.key)).Nodup := by decide
  exact all part listed

/-- Every value of a field has a text. -/
theorem exists_writes (config : Config) :
    ∀ field ∈ allFields, ∃ value, field.Writes (field.get config) value := by
  refine forall_mem_allFields.2 ⟨⟨_, rfl⟩, ⟨_, rfl⟩, ⟨_, rfl⟩, ⟨_, rfl⟩, ?_, ⟨_, rfl⟩⟩
  have spelled (policy : OverflowPolicy) :
      ∃ name ∈ policy.spellings, name.toList.all (Plain ·) = true := by
    cases policy
    · exact ⟨"Reset", by decide, by decide⟩
    · exact ⟨"Wrap", by decide, by decide⟩
  obtain ⟨name, spelling, plain⟩ := spelled config.overflow
  exact ⟨_, name, spelling, _, writtenText_of_plain plain, rfl⟩

theorem exists_writtenSection (config : Config) {part : ConfigSection} (listed : part ∈ layout) :
    ∃ text, WrittenRecord (part.fields.map (·.form config)) text := by
  have plain : ∀ field ∈ allFields, field.key.toList.all (Plain ·) = true := by decide
  have some : ∀ part ∈ layout, part.fields ≠ [] := by decide
  refine exists_writtenRecord (by simpa using some part listed) ?_ ?_
  · rw [List.map_map]
    exact nodup_fields listed
  · rintro form isForm
    obtain ⟨field, inside, rfl⟩ := List.mem_map.1 isForm
    have known : field ∈ allFields := List.mem_flatMap.2 ⟨part, listed, inside⟩
    exact ⟨plain field known, exists_writes config field known⟩

/-- Every configuration can be written. -/
theorem exists_writtenAs (config : Config) : ∃ text : String, config.WrittenAs text.toList := by
  have plain : ∀ part ∈ layout, part.key.toList.all (Plain ·) = true := by decide
  have none : Blanks [] := by decide
  obtain ⟨object, written⟩ : ∃ text, WrittenRecord (layout.map (·.form config)) text := by
    refine exists_writtenRecord (by simp [layout]) ?_ ?_
    · rw [List.map_map]
      exact nodup_layout
    · rintro form isForm
      obtain ⟨part, listed, rfl⟩ := List.mem_map.1 isForm
      exact ⟨plain part listed, exists_writtenSection config listed⟩
  refine ⟨String.ofList object, [], object, [], ?_, none, written, none⟩
  rw [String.toList_ofList, List.nil_append, List.append_nil]

end Config

end TransferCache
