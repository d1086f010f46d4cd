import Fieldmap.Proofs.ForcedTypes
import Fieldmap.Proofs.InTurn

/-!
# What is reported on dump formats

An override is reported where it gives a field another type than the one it is dumped as.
The reports on a format are therefore the difference that the overrides make to its
fields, in the order of the fields, and behind them one on the number of fields. Where an
entry is refused, the reports are those on the entries before it.
-/

namespace Fieldmap

open Text

/-- What is reported on a field that is read as another one than it is dumped as. -/
def Field.typeChange (dumped read : Field) : List Event :=
  if read.type ≠ dumped.type then [.typeOverridden read.name dumped.type read.type] else []

/-- What is reported on fields that are dumped and read one by one. -/
def typeChanges (dumped read : List Field) : List Event :=
  (List.zipWith Field.typeChange dumped read).flatten

theorem typeChanges_cons (firstDumped firstRead : Field) (dumped read : List Field) :
    typeChanges (firstDumped :: dumped) (firstRead :: read) =
      firstDumped.typeChange firstRead ++ typeChanges dumped read := rfl

/-- Changes of types say nothing about the end of a format. -/
theorem formatCompiled_not_mem_typeChanges (count : Nat) (dumped read : List Field) :
    .formatCompiled count ∉ typeChanges dumped read := by
  induction dumped generalizing read with
  | nil => exact List.not_mem_nil
  | cons first rest ih =>
      cases read with
      | nil => exact List.not_mem_nil
      | cons other others =>
          rw [typeChanges_cons, List.mem_append, not_or]
          refine ⟨?_, ih others⟩
          unfold Field.typeChange
          split <;> simp

namespace DumpFormat

variable {overrides : Overrides} {whole : List Char}

/-! ## One entry -/

theorem events_resolve (name : String) (specifier : Char) :
    (overrides.resolve name specifier).events =
      match FieldType.ofSpecifier? specifier with
      | none => []
      | some dumped =>
          (dumpedField .empty name dumped).typeChange (dumpedField overrides name dumped) := by
  unfold Overrides.resolve
  cases FieldType.ofSpecifier? specifier with
  | none => rfl
  | some dumped =>
      cases found : overrides.find? name with
      | none => simp [dumpedField, Field.typeChange, found]
      | some forced =>
          by_cases same : forced = dumped
          · simp [dumpedField, Field.typeChange, found, same]
          · simp [dumpedField, Field.typeChange, found, same, Traced.report]

/-- Nothing but the type of a field is reported on. -/
theorem events_resolved (name : String) (specifier : Char) :
    (resolved overrides name specifier).events = (overrides.resolve name specifier).events := by
  rw [resolved]
  rcases overrides.resolve name specifier with ⟨_ | type, events⟩
  · rfl
  · exact List.append_nil events

/-- What is reported on an entry that describes a field is what the overrides change. -/
theorem events_field_of_describes {entry : List Char} {dumped : Field}
    (described : DescribesField .empty entry dumped) :
    (field overrides whole entry).events = dumped.typeChange (dumped.under overrides) := by
  rcases described with ⟨trims, quotes, identifier, last, conversion⟩
  rename_i key name value specifier dumped
  have apart := quotes.colon_not_mem (not_mem_of_isIdentifier identifier (by decide))
  have filled : name ≠ [] := by
    rintro rfl
    cases identifier
  have entryLast : (':' :: value).getLast? = some specifier := by
    rw [List.getLast?_cons, last, Option.getD_some]
  rw [field_of_colon trims apart entryLast, unquoted_of_quotes quotes identifier,
    if_neg filled, if_pos identifier, events_resolved, events_resolve,
    FieldType.ofSpecifier?_eq_some_iff.mpr conversion, ← dumpedField_eq_under]

/-- Nothing is reported on an entry that is refused. -/
theorem events_field_of_error {entry : List Char} {fault : FormatFault}
    (refused : (field overrides whole entry).outcome = .error fault) :
    (field overrides whole entry).events = [] := by
  rcases entry_cases entry with trims | ⟨core, trims, filled, apart⟩ |
    ⟨key, value, specifier, trims, apart, last⟩
  · rw [field_of_blank trims]
    rfl
  · rw [field_of_colon_not_mem trims filled apart]
    rfl
  · rw [field_of_colon trims apart last] at refused ⊢
    by_cases empty : unquoted key = []
    · rw [if_pos empty]
      rfl
    by_cases identifier : isIdentifier (unquoted key) = true
    · rw [if_neg empty, if_pos identifier] at refused ⊢
      rw [outcome_resolved] at refused
      rw [events_resolved, events_resolve]
      cases known : FieldType.ofSpecifier? specifier with
      | none => rfl
      | some dumped => simp [known] at refused
    · rw [if_neg empty, if_neg identifier]
      rfl

/-- What an entry describes under overrides is what it describes without them, but for the
type that is forced on the name. -/
theorem exists_describesField_empty {entry : List Char} {read : Field}
    (described : DescribesField overrides entry read) :
    ∃ dumped, DescribesField .empty entry dumped ∧ dumped.under overrides = read := by
  have taken : (field overrides [] entry).outcome = .ok read :=
    outcome_field_eq_ok_iff.mpr described
  rw [outcome_field_eq_map] at taken
  obtain ⟨dumped, dumpedTaken, underEq⟩ := exists_of_map_eq_ok taken
  exact ⟨dumped, outcome_field_eq_ok_iff.mp dumpedTaken, underEq⟩

theorem describesField_under {entry : List Char} {dumped : Field}
    (described : DescribesField .empty entry dumped) :
    DescribesField overrides entry (dumped.under overrides) := by
  have taken : (field .empty [] entry).outcome = .ok dumped :=
    outcome_field_eq_ok_iff.mpr described
  have read : (field overrides [] entry).outcome = .ok (dumped.under overrides) := by
    rw [outcome_field_eq_map, taken]
    rfl
  exact outcome_field_eq_ok_iff.mp read

/-! ## All entries -/

section

variable {entries : List (List Char)}

theorem forall₂_describesField_under {dumped : List Field}
    (described : List.Forall₂ (DescribesField .empty) entries dumped) :
    List.Forall₂ (DescribesField overrides) entries (dumped.map (Field.under overrides)) := by
  rw [List.forall₂_map_right_iff]
  exact described.imp fun _ _ => describesField_under

/-- What is reported on entries that describe fields is what the overrides change. -/
theorem flatMap_events_field {dumped : List Field}
    (described : List.Forall₂ (DescribesField .empty) entries dumped) :
    entries.flatMap (fun entry => (field overrides whole entry).events) =
      typeChanges dumped (dumped.map (Field.under overrides)) := by
  induction described with
  | nil => rfl
  | cons first _ ih =>
      rw [List.flatMap_cons, events_field_of_describes first, ih, List.map_cons, typeChanges_cons]

/-- Entries are taken one by one. -/
theorem inTurn_fieldsOf :
    InTurn (fun entry => do return [← field overrides whole entry]) (· ++ ·) []
      (fieldsOf overrides whole) := by
  refine ⟨rfl, fun entry rest => ?_⟩
  simp only [fieldsOf, bind_assoc, pure_bind, List.singleton_append]

theorem singleton_field_eq {entry : List Char} {read : Field}
    (described : DescribesField overrides entry read) :
    (do return [← field overrides whole entry] : Traced FormatFault (List Field)) =
      ⟨.ok [read], (field overrides whole entry).events⟩ := by
  have taken : (field overrides whole entry).outcome = .ok read :=
    outcome_field_eq_ok_iff.mpr described
  apply Traced.ext
  · rw [Traced.outcome_bind, taken]
    rfl
  · generalize field overrides whole entry = result at taken ⊢
    rcases result with ⟨_ | other, events⟩
    · cases taken
    · exact List.append_nil events

theorem singleton_field_eq_error {entry : List Char} {fault : FormatFault}
    (refused : (field overrides whole entry).outcome = .error fault) :
    (do return [← field overrides whole entry] : Traced FormatFault (List Field)) =
      ⟨.error fault, []⟩ := by
  apply Traced.ext
  · rw [Traced.outcome_bind, refused]
    rfl
  · have silent := events_field_of_error refused
    generalize field overrides whole entry = result at refused silent ⊢
    rcases result with ⟨_ | other, events⟩
    · exact silent
    · cases refused

/-- All that is reported on entries that describe fields is what the overrides change. -/
theorem events_fieldsOf_of_describes {dumped : List Field}
    (described : List.Forall₂ (DescribesField .empty) entries dumped) :
    (fieldsOf overrides whole entries).events =
      typeChanges dumped (dumped.map (Field.under overrides)) := by
  have each : List.Forall₂ (fun entry single =>
      (do return [← field overrides whole entry] : Traced FormatFault (List Field)) =
        ⟨.ok single, (field overrides whole entry).events⟩)
      entries (dumped.map fun field => [field.under overrides]) := by
    rw [List.forall₂_map_right_iff]
    exact described.imp fun _ _ first => singleton_field_eq (describesField_under first)
  rw [inTurn_fieldsOf.of_ok each, flatMap_events_field described]

/-- Up to the first entry that is refused, what is reported is what the overrides change. -/
theorem exists_events_fieldsOf_of_error {fault : FormatFault}
    (refused : (fieldsOf overrides whole entries).outcome = .error fault) :
    ∃ before bad after dumped, entries = before ++ bad :: after ∧
      List.Forall₂ (DescribesField .empty) before dumped ∧
      (field overrides whole bad).outcome = .error fault ∧
      (fieldsOf overrides whole entries).events =
        typeChanges dumped (dumped.map (Field.under overrides)) := by
  have someBad : ¬ ∀ entry ∈ entries, ∃ dumped, DescribesField .empty entry dumped := by
    intro allDescribe
    obtain ⟨dumped, described⟩ := exists_forall₂ allDescribe
    have read : (fieldsOf overrides whole entries).outcome =
        .ok (dumped.map (Field.under overrides)) :=
      outcome_fieldsOf_eq_ok_iff.mpr (forall₂_describesField_under described)
    rw [refused] at read
    cases read
  obtain ⟨before, bad, after, rfl, beforeDescribe, badDescribes⟩ :=
    exists_first_of_not_forall someBad
  obtain ⟨dumped, described⟩ := exists_forall₂ beforeDescribe
  cases badOutcome : (field overrides whole bad).outcome with
  | ok read =>
      obtain ⟨other, otherDescribed, _⟩ :=
        exists_describesField_empty (outcome_field_eq_ok_iff.mp badOutcome)
      exact absurd ⟨other, otherDescribed⟩ badDescribes
  | error found =>
      have goesOn : ∀ earlier ∈ before, ∃ single,
          (do return [← field overrides whole earlier] : Traced FormatFault (List Field)) =
            ⟨.ok single, (field overrides whole earlier).events⟩ := by
        intro earlier member
        obtain ⟨first, firstDescribed⟩ := beforeDescribe earlier member
        exact ⟨_, singleton_field_eq (describesField_under firstDescribed)⟩
      have stops : fieldsOf overrides whole (before ++ bad :: after) = _ :=
        inTurn_fieldsOf.of_error goesOn (singleton_field_eq_error badOutcome)
      rw [stops] at refused ⊢
      cases refused
      refine ⟨before, bad, after, dumped, rfl, described, badOutcome, ?_⟩
      rw [List.append_nil, flatMap_events_field described]

end

/-! ## Formats -/

theorem events_fields_of_none {format : String} (cut : entries? (trim format.toList) = none) :
    (fields overrides format).events = [] := by
  simp only [fields, cut]
  rfl

/-- On a format that is taken, the number of its fields is reported last. -/
theorem events_fields_of_ok {format : String} {entries : List (List Char)} {read : List Field}
    (cut : entries? (trim format.toList) = some entries)
    (taken : (fieldsOf overrides (trim format.toList) entries).outcome = .ok read) :
    (fields overrides format).events =
      (fieldsOf overrides (trim format.toList) entries).events ++
        [.formatCompiled read.length] := by
  simp only [fields, cut]
  generalize fieldsOf overrides (trim format.toList) entries = result at taken ⊢
  rcases result with ⟨_ | other, events⟩
  · cases taken
  · cases taken
    rfl

theorem events_fields_of_error {format : String} {entries : List (List Char)}
    {fault : FormatFault} (cut : entries? (trim format.toList) = some entries)
    (refused : (fieldsOf overrides (trim format.toList) entries).outcome = .error fault) :
    (fields overrides format).events =
      (fieldsOf overrides (trim format.toList) entries).events := by
  simp only [fields, cut]
  generalize fieldsOf overrides (trim format.toList) entries = result at refused ⊢
  rcases result with ⟨_ | other, events⟩
  · rfl
  · cases refused

/-- What is reported on a format that is taken is the difference that the overrides make to
its fields, in their order, and then how many fields there are. On a format that is refused
it is the difference for the entries before the first one that is refused. -/
theorem fields_events (overrides : Overrides) (format : String) :
    (∀ read, (fields overrides format).outcome = .ok read →
      ∃ dumped, (fields .empty format).outcome = .ok dumped ∧
        dumped.map Field.name = read.map Field.name ∧
        (fields overrides format).events =
          typeChanges dumped read ++ [.formatCompiled read.length]) ∧
    (∀ fault, (fields overrides format).outcome = .error fault →
      (∀ count, .formatCompiled count ∉ (fields overrides format).events) ∧
      (entries? (trim format.toList) = none ∧ (fields overrides format).events = [] ∨
        ∃ before bad after dumped read,
          entries? (trim format.toList) = some (before ++ bad :: after) ∧
          List.Forall₂ (DescribesField .empty) before dumped ∧
          List.Forall₂ (DescribesField overrides) before read ∧
          (field overrides (trim format.toList) bad).outcome = .error fault ∧
          (fields overrides format).events = typeChanges dumped read)) ∧
    ∀ name dumped forced count,
      (Event.typeOverridden name dumped forced).level = .debug ∧
      (Event.typeOverridden name dumped forced).message = "type overridden" ∧
      (Event.typeOverridden name dumped forced).values =
        [("field", name), ("from", dumped.name), ("to", forced.name)] ∧
      (Event.formatCompiled count).level = .debug ∧
      (Event.formatCompiled count).message = "compiled format string" ∧
      (Event.formatCompiled count).values = [("fields", toString count)] := by
  refine ⟨?_, ?_, fun _ _ _ _ => ⟨rfl, rfl, rfl, rfl, rfl, rfl⟩⟩
  · intro read taken
    have mapped := outcome_fields_eq_map overrides format
    rw [taken] at mapped
    obtain ⟨dumped, dumpedTaken, rfl⟩ := exists_of_map_eq_ok mapped.symm
    refine ⟨dumped, dumpedTaken, by simp [Function.comp_def], ?_⟩
    rw [outcome_fields] at taken dumpedTaken
    cases cut : entries? (trim format.toList) with
    | none =>
        rw [cut] at taken
        cases taken
    | some entries =>
        rw [cut] at taken dumpedTaken
        rw [events_fields_of_ok cut taken,
          events_fieldsOf_of_describes (outcome_fieldsOf_eq_ok_iff.mp dumpedTaken)]
  · intro fault refused
    rw [outcome_fields] at refused
    cases cut : entries? (trim format.toList) with
    | none =>
        have silent : (fields overrides format).events = [] := events_fields_of_none cut
        exact ⟨fun count => by simp [silent], .inl ⟨rfl, silent⟩⟩
    | some entries =>
        rw [cut] at refused
        obtain ⟨before, bad, after, dumped, rfl, described, badRefused, events⟩ :=
          exists_events_fieldsOf_of_error refused
        rw [events_fields_of_error cut refused, events]
        exact ⟨fun count => formatCompiled_not_mem_typeChanges count _ _,
          .inr ⟨before, bad, after, dumped, _, rfl, described,
            forall₂_describesField_under described, badRefused, rfl⟩⟩

-- The second override forces the type that the conversion has, and the third entry is bad.
example : (fields (.ofList [("a", .boolean), ("b", .integer), ("c", .real)])
    "\"a\":%d,\"b\":%d,c\x7d").events = [.typeOverridden "a" .integer .boolean] := by
  decide +kernel

end DumpFormat

end Fieldmap
