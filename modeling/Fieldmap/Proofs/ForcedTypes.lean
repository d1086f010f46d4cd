import Fieldmap.Proofs.FormatLanguage
import Fieldmap.Proofs.OverrideLookup

/-!
# Types forced on names

What a dump format says is read without the overrides: which names its entries have,
which conversions, and what is wrong with them. Only then the types that are forced on
the names replace those of the conversions. Forcing one more type on a name therefore
changes the fields of that name and nothing else, and never whether a format is taken.
-/

namespace Fieldmap

open Text

/-- A field with the type that is forced on its name, and with the usual default of it. -/
def Field.under (overrides : Overrides) (field : Field) : Field :=
  match overrides.find? field.name with
  | none => field
  | some forced => { field with type := forced, default := forced.defaultLiteral? }

namespace Field

variable {overrides : Overrides} {field : Field}

@[simp] theorem name_under : (field.under overrides).name = field.name := by
  unfold under
  split <;> rfl

@[simp] theorem position_under : (field.under overrides).position = field.position := by
  unfold under
  split <;> rfl

/-- One more type changes the fields of its name alone. -/
theorem under_insert_of_ne {name : String} (type : FieldType) (differs : field.name ≠ name) :
    field.under (overrides.insert name type) = field.under overrides := by
  simp [under, differs]

theorem under_insert_self (type : FieldType) :
    field.under (overrides.insert field.name type) =
      { field with type := type, default := type.defaultLiteral? } := by
  simp [under]

end Field

namespace DumpFormat

/-- A name that stands as the key of an entry. -/
def Keys (entry : List Char) (name : String) : Prop :=
  ∃ key value, Trims entry (key ++ ':' :: value) ∧ Quotes key name.toList ∧
    isIdentifier name.toList = true

/-- A name that stands as the key of one of the entries of a format: of one of the stretches
between commas, behind at most one opening brace and in front of the closing one. -/
def Names (format : List Char) (name : String) : Prop :=
  ∃ opening entries, Trims format (opening ++ [','].intercalate entries ++ ['\x7d']) ∧
    AtMostOne '\x7b' opening ∧ (∀ entry ∈ entries, ',' ∉ entry) ∧
    ∃ entry ∈ entries, Keys entry name

section

variable {overrides left right : Overrides} {whole entry : List Char}

theorem dumpedField_eq_under (name : String) (dumped : FieldType) :
    dumpedField overrides name dumped = (dumpedField .empty name dumped).under overrides := by
  simp only [dumpedField, Field.under, Overrides.find?_empty, Option.getD_none]
  cases overrides.find? name <;> rfl

/-- What an entry is taken for depends on the overrides through the field's type alone. -/
theorem outcome_field_eq_map (overrides : Overrides) (whole entry : List Char) :
    (field overrides whole entry).outcome =
      (field .empty whole entry).outcome.map (Field.under overrides) := by
  rcases entry_cases entry with trims | ⟨core, trims, filled, apart⟩ |
    ⟨key, value, specifier, trims, apart, last⟩
  · rw [field_of_blank trims, field_of_blank trims]
    rfl
  · rw [field_of_colon_not_mem trims filled apart, field_of_colon_not_mem trims filled apart]
    rfl
  · rw [field_of_colon trims apart last, field_of_colon trims apart last]
    split
    · rfl
    split
    case isFalse => rfl
    rw [outcome_resolved, outcome_resolved]
    cases FieldType.ofSpecifier? specifier with
    | none => rfl
    | some dumped => exact congrArg Except.ok (dumpedField_eq_under _ dumped)

theorem outcome_fieldsOf_eq_map (entries : List (List Char)) :
    (fieldsOf overrides whole entries).outcome =
      (fieldsOf .empty whole entries).outcome.map (List.map (Field.under overrides)) := by
  induction entries with
  | nil => rfl
  | cons entry rest ih =>
      simp only [fieldsOf, Traced.outcome_bind, outcome_field_eq_map overrides, ih]
      cases (field .empty whole entry).outcome with
      | error fault => rfl
      | ok first => cases (fieldsOf .empty whole rest).outcome <;> rfl

/-- A format is taken as it is without overrides, and then they are put on its fields. -/
theorem outcome_fields_eq_map (overrides : Overrides) (format : String) :
    (fields overrides format).outcome =
      (fields .empty format).outcome.map (List.map (Field.under overrides)) := by
  rw [outcome_fields, outcome_fields]
  cases entries? (trim format.toList) with
  | none => rfl
  | some entries => exact outcome_fieldsOf_eq_map entries

/-! ## Names of a format -/

/-- An entry asks for the type of its own name alone. -/
theorem field_congr_of_keys (agree : ∀ name, Keys entry name → left.find? name = right.find? name) :
    field left whole entry = field right whole entry := by
  rcases entry_cases entry with trims | ⟨core, trims, filled, apart⟩ |
    ⟨key, value, specifier, trims, apart, last⟩
  · rw [field_of_blank trims, field_of_blank trims]
  · rw [field_of_colon_not_mem trims filled apart, field_of_colon_not_mem trims filled apart]
  · rw [field_of_colon trims apart last, field_of_colon trims apart last]
    by_cases identifier : isIdentifier (unquoted key) = true
    · have keys : Keys entry (String.ofList (unquoted key)) := by
        rw [Keys, String.toList_ofList]
        exact ⟨key, value, trims, quotes_unquoted key, identifier⟩
      rw [resolved, resolved, Overrides.resolve_congr (agree _ keys)]
    · rw [if_neg identifier, if_neg identifier]

theorem fieldsOf_congr_of_keys {entries : List (List Char)}
    (agree : ∀ entry ∈ entries, ∀ name, Keys entry name → left.find? name = right.find? name) :
    fieldsOf left whole entries = fieldsOf right whole entries := by
  induction entries with
  | nil => rfl
  | cons entry rest ih =>
      rcases List.forall_mem_cons.mp agree with ⟨firstAgree, restAgree⟩
      rw [fieldsOf, fieldsOf, field_congr_of_keys firstAgree, ih restAgree]

/-- A format asks for the types of its names alone. -/
theorem fields_congr_of_names {format : String}
    (agree : ∀ name, Names format.toList name → left.find? name = right.find? name) :
    fields left format = fields right format := by
  simp only [fields]
  cases cut : entries? (trim format.toList) with
  | none => rfl
  | some entries =>
      obtain ⟨opening, wholeEq, one, _, apart⟩ := exists_of_entries? cut
      have trims := trim_eq_iff.mp wholeEq
      simp only
      rw [fieldsOf_congr_of_keys]
      intro entry member name keys
      exact agree name ⟨opening, entries, trims, one, apart, entry, member, keys⟩

end

/-- What one more override does to a field. -/
structure Retyped (name : String) (type : FieldType) (before after : Field) : Prop where
  sameName : after.name = before.name
  samePosition : after.position = before.position
  other : before.name ≠ name → after = before
  named : before.name = name → after.type = type ∧ after.default = type.defaultLiteral?

theorem retyped_under_insert (overrides : Overrides) (name : String) (type : FieldType)
    (field : Field) :
    Retyped name type (field.under overrides) (field.under (overrides.insert name type)) := by
  refine ⟨by simp, by simp, ?_, ?_⟩
  · intro differs
    exact Field.under_insert_of_ne type (by simpa using differs)
  · intro same
    obtain rfl : field.name = name := by simpa using same
    rw [Field.under_insert_self]
    exact ⟨rfl, rfl⟩

/-- One more override decides nothing about whether a format is taken, nor about the fault
if it is not. It changes the fields of its name, and only their types and defaults. Two
tables of overrides are as good as one another for a format if they agree on its names. -/
theorem fields_insert (overrides : Overrides) (name : String) (type : FieldType)
    (format : String) :
    (∀ fault, (fields (overrides.insert name type) format).outcome = .error fault ↔
      (fields overrides format).outcome = .error fault) ∧
    (∀ before after, (fields overrides format).outcome = .ok before →
      (fields (overrides.insert name type) format).outcome = .ok after →
      List.Forall₂ (Retyped name type) before after) ∧
    ∀ other : Overrides,
      (∀ occurring, Names format.toList occurring →
        other.find? occurring = overrides.find? occurring) →
      fields other format = fields overrides format := by
  refine ⟨?_, ?_, fun other agree => fields_congr_of_names agree⟩
  · intro fault
    rw [outcome_fields_eq_map, outcome_fields_eq_map overrides]
    cases (fields .empty format).outcome with
    | error found => exact Iff.rfl
    | ok taken => exact iff_of_false nofun nofun
  · intro before after beforeTaken afterTaken
    rw [outcome_fields_eq_map] at beforeTaken afterTaken
    obtain ⟨taken, takenEq, rfl⟩ := exists_of_map_eq_ok beforeTaken
    rw [takenEq] at afterTaken
    cases afterTaken
    rw [List.forall₂_map_left_iff, List.forall₂_map_right_iff, List.forall₂_same]
    exact fun field _ => retyped_under_insert overrides name type field

end DumpFormat

end Fieldmap
