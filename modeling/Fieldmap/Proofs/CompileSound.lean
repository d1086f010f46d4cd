import Fieldmap.Proofs.Grammar.Soundness
import Fieldmap.Proofs.Tables
import Fieldmap.Proofs.TokenPlaces
import Fieldmap.Proofs.Validity
import Fieldmap.Spec.Compile

/-!
# What a compiled specification is

The reader only names tables and fields by identifiers, and the check adds every
other rule. Records that were compiled are therefore well formed, and their tables
are always generated.
-/

namespace Fieldmap

/-- A valid record whose fields are named by identifiers. -/
structure Record.WellFormed (record : Record) : Prop extends record.Valid where
  fieldIdentifiers : ∀ field ∈ record.fields, Text.isIdentifier field.name.toList

theorem Record.wellFormed_iff {record : Record} :
    record.WellFormed ↔ record.Valid ∧
      ∀ field ∈ record.fields, Text.isIdentifier field.name.toList = true :=
  ⟨fun wellFormed => ⟨wellFormed.toValid, wellFormed.fieldIdentifiers⟩,
    fun rules => ⟨rules.1, rules.2⟩⟩

instance (record : Record) : Decidable record.WellFormed :=
  decidable_of_iff _ Record.wellFormed_iff.symm

/-- A field whose default fits its type has its clause. -/
theorem Field.DefaultFits.hasClause {field : Field} (fits : field.DefaultFits) :
    field.HasClause := by
  by_cases isString : field.type = .string
  · exact .inl isString
  · obtain ⟨value, default, _⟩ := fits.present isString
    exact .inr ⟨value, default⟩

/-- The tables of records that are valid together are generated. -/
theorem ValidTogether.exists_tables {records : List Record} (valid : ValidTogether records) :
    ∃ code, (tables records).outcome = .ok code := by
  apply exists_tables_iff.mpr
  intro record member field fieldMem
  exact ((valid.each record member).defaults field fieldMem).hasClause

namespace Spec

/-! ## Names in derived records -/

theorem isIdentifier_of_is {token : Token} (identifier : token.is .identifier) :
    Text.isIdentifier token.text.toList = true := identifier

theorem DerivesEntry.isIdentifier_name {tokens : List Token} {field : Field}
    (derived : DerivesEntry tokens field) : Text.isIdentifier field.name.toList = true := by
  rcases derived with ⟨closed, _⟩
  rcases closed with ⟨_, named, _⟩
  exact isIdentifier_of_is named

theorem DerivesRecord.isIdentifier_name {tokens : List Token} {record : Record}
    (derived : DerivesRecord tokens record) : Text.isIdentifier record.name.toList = true := by
  cases derived with
  | intro _ named _ _ _ _ _ nameEq _ =>
      rw [nameEq]
      exact isIdentifier_of_is named

theorem DerivesRecord.isIdentifier_field {tokens : List Token} {record : Record}
    (derived : DerivesRecord tokens record) :
    ∀ field ∈ record.fields, Text.isIdentifier field.name.toList = true := by
  cases derived with
  | intro _ _ _ body _ _ gathers _ _ =>
      intro field member
      obtain ⟨stretch, item⟩ := body.derives_of_mem gathers.fieldmap
      cases item with
      | fieldmap _ _ entries _ =>
          obtain ⟨_, entry⟩ := entries.derives_of_mem member
          exact entry.isIdentifier_name

/-- What is read from a text is derived from all of its tokens. -/
theorem exists_derivesFile_of_read {text : String} {records : List Record}
    (result : read text = .ok records) :
    ∃ tokens, Token.ofText text = .ok tokens ∧ DerivesFile tokens records := by
  unfold read at result
  obtain ⟨tokens, cut, result⟩ := exists_of_bind_eq_ok result
  obtain ⟨body, last, rfl, _, filled⟩ := Token.exists_ofText_eq cut
  exact ⟨body ++ [last], cut, derivesFile_of_recordsOf_concat filled result⟩

/-- All that is read from a text is named by identifiers. -/
theorem isIdentifier_of_read {text : String} {records : List Record}
    (result : read text = .ok records) :
    ∀ record ∈ records, Text.isIdentifier record.name.toList = true ∧
      ∀ field ∈ record.fields, Text.isIdentifier field.name.toList = true := by
  obtain ⟨_, _, derived⟩ := exists_derivesFile_of_read result
  cases derived with
  | intro sequence _ =>
      intro record member
      obtain ⟨_, recordDerived⟩ := sequence.derives_of_mem member
      exact ⟨recordDerived.isIdentifier_name, recordDerived.isIdentifier_field⟩

/-! ## Compilation stage by stage -/

/-- Compilation fails as the reader does, else as the check does. -/
theorem compile_outcome (text : String) :
    (compile text).outcome =
      match read text with
      | .error error => .error (.spec error)
      | .ok records =>
          match checkRecords records with
          | .error violation => .error (.violation violation)
          | .ok () => .ok records := by
  simp only [compile, Traced.outcome_bind, Traced.outcome_ofExcept, Traced.outcome_report]
  cases read text with
  | error error => rfl
  | ok records =>
      cases checked : checkRecords records with
      | error violation => simp [Except.mapError, bind, Except.bind, checked]
      | ok _ => simp [Except.mapError, bind, Except.bind, checked]

theorem compile_eq_ok_iff {text : String} {records : List Record} :
    (compile text).outcome = .ok records ↔
      read text = .ok records ∧ ValidTogether records := by
  rw [compile_outcome, ← checkRecords_eq_ok_iff_validTogether]
  cases read text with
  | error error => simp
  | ok read =>
      dsimp only
      cases checked : checkRecords read with
      | error violation =>
          simp only [reduceCtorEq, Except.ok.injEq, false_iff, not_and]
          intro same
          subst same
          simp [checked]
      | ok _ =>
          simp only [Except.ok.injEq]
          constructor
          · intro same
            subst same
            exact ⟨rfl, checked⟩
          · exact And.left

/-- Compiled records are well formed. -/
theorem wellFormed_of_compile {text : String} {records : List Record}
    (compiled : (compile text).outcome = .ok records) : ∀ record ∈ records, record.WellFormed := by
  obtain ⟨result, valid⟩ := compile_eq_ok_iff.mp compiled
  intro record member
  exact ⟨valid.each record member, (isIdentifier_of_read result record member).2⟩

/-- A fault in a specification is found by the reader. -/
theorem read_eq_error_of_compile {text : String} {error : Error}
    (refused : (compile text).outcome = .error (.spec error)) : read text = .error error := by
  rw [compile_outcome] at refused
  cases result : read text with
  | error found =>
      rw [result] at refused
      cases refused
      rfl
  | ok records =>
      rw [result] at refused
      cases checked : checkRecords records <;> simp [checked] at refused

/-- Only what was read is checked. -/
theorem exists_read_of_violation {text : String} {violation : Violation}
    (refused : (compile text).outcome = .error (.violation violation)) :
    ∃ records, read text = .ok records ∧ violation ∈ tableViolations [] records := by
  rw [compile_outcome] at refused
  cases result : read text with
  | error error =>
      rw [result] at refused
      cases refused
  | ok records =>
      simp only [result] at refused
      refine ⟨records, rfl, ?_⟩
      unfold checkRecords at refused
      cases violations : tableViolations [] records with
      | nil => simp [violations, refuseFirst] at refused
      | cons first rest =>
          simp only [violations, refuseFirst, Except.error.injEq, Error.violation.injEq] at refused
          subst refused
          exact List.mem_cons_self

end Spec

/-! ## Rules that reading already establishes -/

theorem mem_tableViolations {violation : Violation} {seen : List String} {records : List Record}
    (member : violation ∈ tableViolations seen records) :
    ∃ record ∈ records,
      violation = .duplicateTable record.name ∨ violation ∈ record.violations := by
  induction records generalizing seen with
  | nil => cases member
  | cons record rest ih =>
      simp only [tableViolations, List.mem_append] at member
      rcases member with (duplicate | own) | later
      · refine ⟨record, List.mem_cons_self, .inl ?_⟩
        split at duplicate
        · simpa using duplicate
        · cases duplicate
      · exact ⟨record, List.mem_cons_self, .inr own⟩
      · obtain ⟨other, otherMem, found⟩ := ih later
        exact ⟨other, List.mem_cons_of_mem record otherMem, found⟩

theorem mem_fieldNameViolations {violation : Violation} {table : String} {seen : List String}
    {fields : List Field} (member : violation ∈ fieldNameViolations table seen fields) :
    ∃ field ∈ fields, (field.name = "" ∧ violation = .emptyFieldName table) ∨
      violation = .duplicateField field.name table := by
  induction fields generalizing seen with
  | nil => cases member
  | cons field rest ih =>
      simp only [fieldNameViolations, List.mem_append] at member
      rcases member with own | later
      · refine ⟨field, List.mem_cons_self, ?_⟩
        split at own
        · rename_i empty
          exact .inl ⟨empty, by simpa using own⟩
        · split at own
          · exact .inr (by simpa using own)
          · cases own
      · obtain ⟨other, otherMem, found⟩ := ih later
        exact ⟨other, List.mem_cons_of_mem field otherMem, found⟩

/-- A violation of the rules for the names of one record. -/
def Violation.IsNaming : Violation → Prop
  | invalidTableName _ => True
  | emptyFieldName _ => True
  | _ => False

theorem Field.defaultViolation?_not_isNaming {field : Field} {violation : Violation}
    (found : field.defaultViolation? = some violation) : ¬ violation.IsNaming := by
  unfold defaultViolation? at found
  split at found
  · cases found
  · cases found
    exact id
  · cases found
    exact id
  · split at found
    · cases found
      exact id
    · cases found

theorem Record.bufferedViolation?_not_isNaming {record : Record} {name : String}
    {violation : Violation} (found : record.bufferedViolation? name = some violation) :
    ¬ violation.IsNaming := by
  unfold bufferedViolation? at found
  split at found
  · cases found
    exact id
  · split at found
    · cases found
    · cases found
      exact id

/-- Where tables and fields are named by identifiers, no rule on names is broken. -/
theorem Record.not_isNaming_of_mem_violations {record : Record} {violation : Violation}
    (identifier : Text.isIdentifier record.name.toList = true)
    (fieldIdentifiers : ∀ field ∈ record.fields, Text.isIdentifier field.name.toList = true)
    (member : violation ∈ record.violations) : ¬ violation.IsNaming := by
  simp only [violations, identifier, ↓reduceIte, List.nil_append, List.mem_append,
    List.mem_filterMap] at member
  rcases member with (names | ⟨field, _, found⟩) | ⟨name, _, found⟩
  · obtain ⟨field, fieldMem, ⟨empty, _⟩ | rfl⟩ := mem_fieldNameViolations names
    · have named := fieldIdentifiers field fieldMem
      rw [empty] at named
      cases named
    · exact id
  · exact Field.defaultViolation?_not_isNaming found
  · exact bufferedViolation?_not_isNaming found

namespace Spec

/-- What was compiled is well formed and its tables are generated. Compilation never
fails for the name of a table or for an empty name of a field. -/
theorem compile_sound (text : String) :
    (∀ records, (compile text).outcome = .ok records →
      (records.map Record.name).Nodup ∧ (∀ record ∈ records, record.WellFormed) ∧
        ∃ code, (tables records).outcome = .ok code) ∧
    ∀ table, (compile text).outcome ≠ .error (.violation (.invalidTableName table)) ∧
      (compile text).outcome ≠ .error (.violation (.emptyFieldName table)) := by
  have notNaming {violation : Violation}
      (refused : (compile text).outcome = .error (.violation violation)) :
      ¬ violation.IsNaming := by
    obtain ⟨records, result, member⟩ := exists_read_of_violation refused
    obtain ⟨record, recordMem, rfl | own⟩ := mem_tableViolations member
    · exact id
    · obtain ⟨identifier, fieldIdentifiers⟩ := isIdentifier_of_read result record recordMem
      exact Record.not_isNaming_of_mem_violations identifier fieldIdentifiers own
  constructor
  · intro records compiled
    obtain ⟨result, valid⟩ := compile_eq_ok_iff.mp compiled
    refine ⟨valid.distinct, fun record member => ?_, valid.exists_tables⟩
    exact ⟨valid.each record member, (isIdentifier_of_read result record member).2⟩
  · intro table
    exact ⟨fun refused => notNaming refused trivial, fun refused => notNaming refused trivial⟩

end Spec

end Fieldmap
