import Fieldmap.Error
import Fieldmap.Proofs.FormatEntry
import Fieldmap.Proofs.ReadBack
import Mathlib.Data.List.Forall2

/-!
# The language of dump formats

A dump format describes fields when, without the blanks around it, it consists of
entries between commas, with a closing brace behind them and perhaps an opening one in
front, and every entry describes one field. Compiling a format finds the fields that it
describes. On any other format it fails, and it blames the first entry that describes
no field.
-/

namespace Fieldmap

open Text

namespace DumpFormat

/-- A format describes the fields of its entries. -/
inductive Describes (overrides : Overrides) (format : List Char) (fields : List Field) : Prop where
  | intro {opening : List Char} {entries : List (List Char)} :
      Trims format (opening ++ [','].intercalate entries ++ ['\x7d']) →
      AtMostOne '\x7b' opening → entries ≠ [] → (∀ entry ∈ entries, ',' ∉ entry) →
      List.Forall₂ (DescribesField overrides) entries fields →
      Describes overrides format fields

/-- Why a format describes no fields: it is not closed, or one of its entries describes
none, and those before it do. -/
inductive Fault (overrides : Overrides) (format : List Char) : FormatFault → Prop where
  | unterminated {whole : List Char} : Trims format whole → whole.getLast? ≠ some '\x7d' →
      Fault overrides format (.unterminated (String.ofList whole))
  | entry {whole opening entry : List Char} {before after : List (List Char)}
      {fields : List Field} {fault : FormatFault} : Trims format whole →
      whole = opening ++ [','].intercalate (before ++ entry :: after) ++ ['\x7d'] →
      AtMostOne '\x7b' opening → (∀ entry' ∈ before ++ entry :: after, ',' ∉ entry') →
      List.Forall₂ (DescribesField overrides) before fields → EntryFault whole entry fault →
      Fault overrides format fault

/-! ## All entries -/

section

variable {overrides : Overrides} {whole : List Char} {entries : List (List Char)}

theorem outcome_fieldsOf_eq_ok_iff {taken : List Field} :
    (fieldsOf overrides whole entries).outcome = .ok taken ↔
      List.Forall₂ (DescribesField overrides) entries taken := by
  induction entries generalizing taken with
  | nil =>
      constructor
      · intro result
        cases result
        exact .nil
      · rintro ⟨⟩
        rfl
  | cons entry rest ih =>
      constructor
      · intro result
        obtain ⟨first, firstResult, result⟩ := Traced.exists_of_outcome_bind result
        obtain ⟨others, othersResult, result⟩ := Traced.exists_of_outcome_bind result
        cases result
        exact .cons (outcome_field_eq_ok_iff.mp firstResult) (ih.mp othersResult)
      · intro described
        cases described with
        | cons first others =>
            rw [fieldsOf, Traced.outcome_bind_of_eq_ok (outcome_field_eq_ok_iff.mpr first),
              Traced.outcome_bind_of_eq_ok (ih.mpr others)]
            rfl

/-- The entries before the one that is blamed describe fields. -/
theorem exists_of_outcome_fieldsOf {fault : FormatFault}
    (refused : (fieldsOf overrides whole entries).outcome = .error fault) :
    ∃ before entry after fields, entries = before ++ entry :: after ∧
      List.Forall₂ (DescribesField overrides) before fields ∧ EntryFault whole entry fault := by
  induction entries with
  | nil => cases refused
  | cons entry rest ih =>
      rw [fieldsOf, Traced.outcome_bind] at refused
      rcases eq_error_of_bind_eq_error refused with blamed | ⟨first, taken, refused⟩
      · exact ⟨[], entry, rest, [], rfl, .nil, entryFault_of_outcome_field blamed⟩
      · rw [Traced.outcome_bind] at refused
        rcases eq_error_of_bind_eq_error refused with blamed | ⟨others, _, refused⟩
        · obtain ⟨before, entry', after, fields, rfl, described, entryFault⟩ := ih blamed
          exact ⟨entry :: before, entry', after, first :: fields, rfl,
            .cons (outcome_field_eq_ok_iff.mp taken) described, entryFault⟩
        · cases refused

end

/-! ## The whole format -/

/-- Cutting at a character leaves it in no piece. -/
theorem not_mem_of_mem_splitOn {c : Char} {text piece : List Char}
    (member : piece ∈ text.splitOn c) : c ∉ piece := by
  induction text generalizing piece with
  | nil =>
      obtain rfl : piece = [] := by simpa [List.splitOn] using member
      exact List.not_mem_nil
  | cons first rest ih =>
      rw [List.splitOn, List.splitOnP_cons_eq_if_modifyHead, ← List.splitOn] at member
      split at member
      · rcases List.mem_cons.mp member with rfl | member
        · exact List.not_mem_nil
        · exact ih member
      · rename_i differs
        cases split : rest.splitOn c with
        | nil => exact absurd split (List.splitOn_ne_nil c rest)
        | cons head others =>
            rw [split] at ih member
            rcases List.mem_cons.mp member with rfl | member
            · intro inside
              rcases List.mem_cons.mp inside with rfl | inside
              · exact differs (beq_self_eq_true _)
              · exact ih List.mem_cons_self inside
            · exact ih (List.mem_cons_of_mem _ member)

/-- Closed formats are cut into entries. -/
theorem exists_of_entries? {whole : List Char} {entries : List (List Char)}
    (cut : entries? whole = some entries) :
    ∃ opening, whole = opening ++ [','].intercalate entries ++ ['\x7d'] ∧
      AtMostOne '\x7b' opening ∧ entries ≠ [] ∧ ∀ entry ∈ entries, ',' ∉ entry := by
  unfold entries? at cut
  split at cut
  · rename_i closed
    cases cut
    obtain ⟨opening, one, bodyEq⟩ := exists_withoutFirst '\x7b' whole.dropLast
    refine ⟨opening, ?_, one, List.splitOn_ne_nil _ _, fun _ => not_mem_of_mem_splitOn⟩
    rw [List.intercalate_splitOn, ← bodyEq]
    exact (List.dropLast_append_getLast? _ closed).symm
  · cases cut

/-- Entries that describe fields do not begin with a brace. -/
theorem DescribesField.exists_cons_ne_brace {overrides : Overrides} {entry : List Char} {taken : Field}
    (described : DescribesField overrides entry taken) :
    ∃ c rest, entry = c :: rest ∧ c ≠ '\x7b' := by
  rcases described with ⟨⟨⟨front, back, rfl, frontBlank, -⟩, -, -⟩, quotes, identifier, -, -⟩
  rename_i key name value _ _
  cases front with
  | cons blank front =>
      refine ⟨blank, _, rfl, ?_⟩
      rintro rfl
      exact absurd (frontBlank _ List.mem_cons_self) (by decide)
  | nil =>
      rcases quotes with ⟨opening, closing, rfl | rfl, _, rfl⟩
      · cases name with
        | nil => cases identifier
        | cons first rest =>
            refine ⟨first, _, rfl, ?_⟩
            rintro rfl
            cases identifier
      · exact ⟨'"', _, rfl, by decide⟩

theorem entries?_of_described {overrides : Overrides} {opening : List Char}
    {entries : List (List Char)} {taken : List Field} (one : AtMostOne '\x7b' opening)
    (filled : entries ≠ []) (apart : ∀ entry ∈ entries, ',' ∉ entry)
    (described : List.Forall₂ (DescribesField overrides) entries taken) :
    entries? (opening ++ [','].intercalate entries ++ ['\x7d']) = some entries := by
  have notBrace : ([','].intercalate entries).head? ≠ some '\x7b' := by
    cases described with
    | nil => exact absurd rfl filled
    | @cons entry _ others _ first _ =>
        obtain ⟨c, rest, rfl, differs⟩ := first.exists_cons_ne_brace
        cases others with
        | nil => simpa using differs
        | cons => simpa [List.intercalate_cons_cons] using differs
  rw [entries?, List.getLast?_concat, if_pos rfl, List.dropLast_concat,
    withoutFirst_append one notBrace, List.splitOn_intercalate ',' apart filled]

section

variable {overrides : Overrides} {format : String}

theorem outcome_fields :
    (fields overrides format).outcome =
      match entries? (trim format.toList) with
      | none => .error (.unterminated (String.ofList (trim format.toList)))
      | some entries => (fieldsOf overrides (trim format.toList) entries).outcome := by
  simp only [fields]
  cases entries? (trim format.toList) with
  | none => rfl
  | some entries =>
      simp only [Traced.outcome_bind]
      cases (fieldsOf overrides (trim format.toList) entries).outcome <;> rfl

theorem outcome_fields_eq_ok_iff {taken : List Field} :
    (fields overrides format).outcome = .ok taken ↔ Describes overrides format.toList taken := by
  rw [outcome_fields]
  constructor
  · intro result
    split at result
    · cases result
    · rename_i entries cut
      obtain ⟨opening, wholeEq, one, filled, apart⟩ := exists_of_entries? cut
      exact .intro (trim_eq_iff.mp wholeEq) one filled apart (outcome_fieldsOf_eq_ok_iff.mp result)
  · rintro ⟨trims, one, filled, apart, described⟩
    rw [trim_eq_iff.mpr trims, entries?_of_described one filled apart described]
    exact outcome_fieldsOf_eq_ok_iff.mpr described

theorem fault_of_outcome_fields {fault : FormatFault}
    (refused : (fields overrides format).outcome = .error fault) :
    Fault overrides format.toList fault := by
  have trims : Trims format.toList (trim format.toList) := trim_eq_iff.mp rfl
  rw [outcome_fields] at refused
  split at refused
  · rename_i uncut
    cases refused
    refine .unterminated trims ?_
    intro closed
    rw [entries?, if_pos closed] at uncut
    cases uncut
  · rename_i entries cut
    obtain ⟨opening, wholeEq, one, _, apart⟩ := exists_of_entries? cut
    obtain ⟨before, entry, after, fields, rfl, described, fault⟩ :=
      exists_of_outcome_fieldsOf refused
    exact .entry trims wholeEq one apart described fault

end

/-! ## Writing formats -/

/-- The usual conversion of a type. Flags are dumped as numbers. -/
def conversion : FieldType → List Char
  | .integer | .boolean => ['%', 'd']
  | .uinteger => ['%', 'u']
  | .real => ['%', '.', '1', 'f']
  | .string => ['"', '%', 's', '"']

/-- The usual entry of a field. -/
def usualEntry (field : Field) : List Char :=
  '"' :: field.name.toList ++ '"' :: ':' :: conversion field.type

/-- The usual format of a report of fields. The opening brace may be written before it. -/
def usualFormat (fields : List Field) : List Char :=
  [','].intercalate (fields.map usualEntry) ++ ['\x7d']

/-- A field that a conversion tells all about. -/
structure Plain (overrides : Overrides) (field : Field) : Prop where
  identifier : isIdentifier field.name.toList = true
  dumped : field.type ≠ .boolean
  default : field.default = field.type.defaultLiteral?
  free : overrides.find? field.name = none

/-- A usual conversion ends in the character that stands for the type. -/
theorem exists_conversion_eq {type : FieldType} (dumped : type ≠ .boolean) :
    ∃ front specifier, conversion type = front ++ [specifier] ∧
      FieldType.Conversion specifier type ∧ isBlank specifier = false := by
  cases type with
  | integer => exact ⟨['%'], 'd', rfl, .integer, by decide⟩
  | uinteger => exact ⟨['%'], 'u', rfl, .uinteger, by decide⟩
  | real => exact ⟨['%', '.', '1'], 'f', rfl, .real, by decide⟩
  | string => exact ⟨['"', '%', 's'], '"', rfl, .string, by decide⟩
  | boolean => exact absurd rfl dumped

theorem Plain.dumpedField_eq {overrides : Overrides} {field : Field}
    (plain : Plain overrides field) :
    dumpedField overrides (String.ofList field.name.toList) field.type = field.unplaced := by
  rcases field with ⟨name, position, type, default⟩
  obtain rfl : default = type.defaultLiteral? := plain.default
  have free : overrides.find? name = none := plain.free
  rw [String.ofList_toList, dumpedField, free]
  rfl

theorem describesField_usualEntry {overrides : Overrides} {field : Field}
    (plain : Plain overrides field) :
    DescribesField overrides (usualEntry field) field.unplaced := by
  obtain ⟨front, specifier, conversionEq, stands, ink⟩ := exists_conversion_eq plain.dumped
  have entryEq : usualEntry field =
      (['"'] ++ field.name.toList ++ ['"']) ++ ':' :: (front ++ [specifier]) := by
    simp [usualEntry, conversionEq]
  have trims : Trims (usualEntry field)
      ((['"'] ++ field.name.toList ++ ['"']) ++ ':' :: (front ++ [specifier])) := by
    rw [entryEq]
    refine .self rfl ?_
    rw [← List.cons_append, ← List.append_assoc, List.getLast?_concat]
    exact ink
  rw [← plain.dumpedField_eq]
  exact .intro trims ⟨['"'], ['"'], .inr rfl, .inr rfl, rfl⟩ plain.identifier
    List.getLast?_concat stands

theorem comma_not_mem_usualEntry {overrides : Overrides} {field : Field}
    (plain : Plain overrides field) : ',' ∉ usualEntry field := by
  have inConversion : ',' ∉ conversion field.type := by cases field.type <;> decide
  have inName := not_mem_of_isIdentifier plain.identifier (c := ',') (by decide)
  simp [usualEntry, inConversion, inName]

theorem describes_usualFormat {overrides : Overrides} {opening : List Char}
    (one : AtMostOne '\x7b' opening) {fields : List Field} (filled : fields ≠ [])
    (plain : ∀ field ∈ fields, Plain overrides field) :
    Describes overrides (opening ++ usualFormat fields) (fields.map Field.unplaced) := by
  have described : List.Forall₂ (DescribesField overrides) (fields.map usualEntry)
      (fields.map Field.unplaced) := by
    rw [List.forall₂_map_left_iff, List.forall₂_map_right_iff, List.forall₂_same]
    exact fun field member => describesField_usualEntry (plain field member)
  have apart : ∀ entry ∈ fields.map usualEntry, ',' ∉ entry :=
    List.forall_mem_map.mpr fun field member => comma_not_mem_usualEntry (plain field member)
  have trims : Trims (opening ++ usualFormat fields)
      (opening ++ [','].intercalate (fields.map usualEntry) ++ ['\x7d']) := by
    rw [usualFormat, ← List.append_assoc]
    refine .self ?_ ?_
    · obtain ⟨first, rest, rfl⟩ := List.exists_cons_of_ne_nil filled
      rcases one with rfl | rfl
      · cases rest <;> rfl
      · rfl
    · rw [List.getLast?_concat]
      decide
  exact .intro trims one (by simpa using filled) apart described

/-- Compiling a format finds exactly the fields that it describes. In the usual format of
a report the fields are found again. A format that describes none is malformed, and the
first of its entries that describes none is blamed. -/
theorem fields_language (overrides : Overrides) (format : String) :
    (∀ taken, (fields overrides format).outcome = .ok taken ↔
      Describes overrides format.toList taken) ∧
    (∀ opening named, format.toList = opening ++ usualFormat named → AtMostOne '\x7b' opening →
      named ≠ [] → (∀ field ∈ named, Plain overrides field) →
      (fields overrides format).outcome = .ok (named.map Field.unplaced)) ∧
    ((¬ ∃ taken, Describes overrides format.toList taken) →
      ∃ fault, (fields overrides format).outcome = .error fault) ∧
    ∀ fault, (fields overrides format).outcome = .error fault →
      Fault overrides format.toList fault ∧
        (Error.format fault).message = "Malformed input: " ++ fault.message := by
  refine ⟨fun _ => outcome_fields_eq_ok_iff, ?_, ?_, fun _ refused =>
    ⟨fault_of_outcome_fields refused, rfl⟩⟩
  · intro opening named formatEq one filled plain
    rw [outcome_fields_eq_ok_iff, formatEq]
    exact describes_usualFormat one filled plain
  · intro nothing
    cases outcome : (fields overrides format).outcome with
    | ok taken => exact absurd ⟨taken, outcome_fields_eq_ok_iff.mp outcome⟩ nothing
    | error fault => exact ⟨fault, rfl⟩

/-- Colons, braces and quotes may stand in values. -/
example : (fields .empty "\x7b\"lat\":\x7b:%d, lon\":\"%s\"\x7d ").outcome =
    .ok [⟨"lat", .nowhere, .integer, some "0"⟩, ⟨"lon", .nowhere, .string, none⟩] := rfl

end DumpFormat

end Fieldmap
