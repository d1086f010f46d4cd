import Fieldmap.Proofs.DumpFields
import Fieldmap.Proofs.PastedBlock

/-!
# From a dump format back to a record

The fields of a dump format are written as a fieldmap block, and the block is pasted
into a record. The record has the fields of the format again, whatever the format
and the types forced on its names were. It is refused only where the format names a
field twice.
-/

namespace Fieldmap

open Text

namespace Spec

theorem pastable_of_dumped {field : Field} (dumped : field.Dumped) : Pastable field := by
  refine ⟨dumped.identifier, ?_⟩
  rw [dumped.default]
  exact bareDefault_defaultLiteral? field.type

/-- A pasted block of well filled fields can only break the rules for names. -/
theorem checkRecords_pasted {name structName : String} {fields : List Field}
    (named : isIdentifier name.toList) (fits : ∀ field ∈ fields, field.DefaultFits) :
    checkRecords [pastedRecord name structName fields] =
      refuseFirst (fieldNameViolations name [] fields) := by
  have defaults : fields.filterMap Field.defaultViolation? = [] := by
    rw [List.filterMap_eq_nil_iff]
    exact fun field member => Field.defaultViolation?_eq_none_iff.mpr (fits field member)
  have moved := Record.violations_relocate (fun _ => .nowhere)
    ⟨name, .nowhere, none, structName, fields, .empty⟩
  have violations : (pastedRecord name structName fields).violations =
      fieldNameViolations name [] fields := by
    apply moved.trans
    simp [Record.violations, named, defaults, NameSet.empty]
  simp [checkRecords, tableViolations, violations]

/-- The fields of a format, written as a block and pasted into a record, are compiled
exactly when no name occurs twice. They are the fields of the format again and their
table is generated. Otherwise the first field whose name occurred before is refused. -/
theorem compile_pasted_format {overrides : Overrides} {format : String} {fields : List Field}
    (dumped : (DumpFormat.fields overrides format).outcome = .ok fields)
    {name structName : String} (named : isIdentifier name.toList)
    (structNamed : isIdentifier structName.toList) :
    ((∃ records, (compile (pasted name structName fields)).outcome = .ok records) ↔
      (fields.map Field.name).Nodup) ∧
    (∀ records, (compile (pasted name structName fields)).outcome = .ok records →
      records.map Record.unplaced = [pastedRecord name structName fields] ∧
        ∃ code, (tables records).outcome = .ok code) ∧
    ∀ error, (compile (pasted name structName fields)).outcome = .error error →
      ∃ before field after, fields = before ++ field :: after ∧
        (before.map Field.name).Nodup ∧ field.name ∈ before.map Field.name ∧
        error = .violation (.duplicateField field.name name) := by
  have fieldsDumped := DumpFormat.dumped_of_fields dumped
  have filled : ∀ field ∈ fields, field.name ≠ "" := by
    intro field member empty
    have identifier := (fieldsDumped field member).identifier
    rw [empty] at identifier
    cases identifier
  obtain ⟨placed, placedEq, outcome⟩ := compile_pasted_outcome named structNamed
    fun field member => pastable_of_dumped (fieldsDumped field member)
  rw [checkRecords_pasted named fun field member => (fieldsDumped field member).defaultFits]
    at outcome
  cases violations : fieldNameViolations name [] fields with
  | nil =>
      have distinct := (fieldNameViolations_eq_nil_iff.mp violations).2.distinct
      rw [violations] at outcome
      have outcomeEq : (compile (pasted name structName fields)).outcome = .ok placed := outcome
      refine ⟨⟨fun _ => distinct, fun _ => ⟨placed, outcomeEq⟩⟩, ?_, ?_⟩
      · intro records compiled
        rw [outcomeEq] at compiled
        cases compiled
        exact ⟨placedEq, (compile_eq_ok_iff.mp outcomeEq).2.exists_tables⟩
      · intro error refused
        rw [outcomeEq] at refused
        cases refused
  | cons violation rest =>
      obtain ⟨before, field, after, fieldsEq, apart, occurred, rfl⟩ :=
        exists_first_repeat filled violations
      have inBefore : field.name ∈ before.map Field.name := by simpa using occurred
      rw [violations] at outcome
      have outcomeEq : (compile (pasted name structName fields)).outcome =
          .error (.violation (.duplicateField field.name name)) := outcome
      have notDistinct : ¬ (fields.map Field.name).Nodup := by
        intro distinct
        rw [fieldsEq, List.map_append, List.map_cons] at distinct
        exact (List.nodup_append.mp distinct).2.2 _ inBefore _ List.mem_cons_self rfl
      refine ⟨⟨?_, fun distinct => absurd distinct notDistinct⟩, ?_, ?_⟩
      · intro compiles
        rcases compiles with ⟨records, compiled⟩
        rw [outcomeEq] at compiled
        cases compiled
      · intro records compiled
        rw [outcomeEq] at compiled
        cases compiled
      · intro error refused
        rw [outcomeEq] at refused
        cases refused
        exact ⟨before, field, after, fieldsEq, apart.distinct, inBefore, rfl⟩

/-- A format with keywords among its names and one name wider than the column. -/
def keywordFormat : String :=
  "\x7b\"None\":%d, record:%.1f ,\"a_very_wide_name\":\"%u\",\"struct\":%u\x7d"

/-- Its fields where `None` is forced to be a string and `struct` a flag. -/
def keywordFields : List Field := [
  ⟨"None", .nowhere, .string, none⟩, ⟨"record", .nowhere, .real, some "0.0"⟩,
  ⟨"a_very_wide_name", .nowhere, .string, none⟩, ⟨"struct", .nowhere, .boolean, some "false"⟩]

theorem compile_pasted_keywordFormat :
    (DumpFormat.fields (.ofList [("None", .string), ("struct", .boolean)]) keywordFormat).outcome =
      .ok keywordFields ∧
    isIdentifier "fieldmap".toList ∧ isIdentifier "None".toList ∧
    ∃ records, (compile (pasted "fieldmap" "None" keywordFields)).outcome = .ok records ∧
      records.map Record.unplaced = [pastedRecord "fieldmap" "None" keywordFields] := by
  have dumped : (DumpFormat.fields (.ofList [("None", .string), ("struct", .boolean)])
      keywordFormat).outcome = .ok keywordFields := rfl
  have named : isIdentifier "fieldmap".toList := by decide
  have structNamed : isIdentifier "None".toList := by decide
  obtain ⟨compiles, pastedBack, _⟩ := compile_pasted_format dumped named structNamed
  obtain ⟨records, compiled⟩ := compiles.mpr (by decide)
  exact ⟨dumped, named, structNamed, records, compiled, (pastedBack records compiled).1⟩

end Spec

end Fieldmap
