import Fieldmap.Record.Table

/-!
# When tables are generated

A table is generated unless a field that needs a default lacks one. Strings have a
capacity instead and never stand in the way.
-/

namespace Fieldmap

/-- Two results in a row succeed exactly when each does. -/
theorem exists_both_eq_ok_iff {ε α β γ : Type} {first : Except ε α} {second : Except ε β}
    {combine : α → β → γ} :
    (∃ value, (do
      let left ← first
      let right ← second
      .ok (combine left right)) = .ok value) ↔
      (∃ left, first = .ok left) ∧ ∃ right, second = .ok right := by
  cases first <;> cases second <;> simp [bind, Except.bind]

/-- A field has the clause of its second line: a string always, any other field when
it has a default. -/
def Field.HasClause (field : Field) : Prop :=
  field.type = .string ∨ ∃ value, field.default = some value

namespace Record

variable (record : Record)

theorem exists_clause_iff {field : Field} :
    (∃ clause, record.clause field = .ok clause) ↔ field.HasClause := by
  unfold clause Field.HasClause
  split
  · rename_i isString
    simp [isString]
  · rename_i notString
    split <;> simp_all

theorem fieldLines_outcome (field : Field) :
    (record.fieldLines field).outcome =
      (record.clause field).map fun clause =>
        [record.storageLine field, Text.spaces clauseIndent ++ clause] := by
  unfold fieldLines
  split <;> cases record.clause field <;> rfl

theorem exists_fieldLines_iff {field : Field} :
    (∃ lines, (record.fieldLines field).outcome = .ok lines) ↔ field.HasClause := by
  rw [fieldLines_outcome, ← record.exists_clause_iff]
  cases record.clause field <;> simp [Except.map]

theorem exists_fieldsLines_iff {fields : List Field} :
    (∃ lines, (record.fieldsLines fields).outcome = .ok lines) ↔
      ∀ field ∈ fields, field.HasClause := by
  induction fields with
  | nil => simp [fieldsLines]
  | cons field rest ih =>
      rw [List.forall_mem_cons, ← ih, ← record.exists_fieldLines_iff]
      simp only [fieldsLines, Traced.outcome_bind, Traced.pure_eq]
      exact exists_both_eq_ok_iff

theorem exists_table_iff :
    (∃ code, record.table.outcome = .ok code) ↔ ∀ field ∈ record.fields, field.HasClause := by
  rw [← record.exists_fieldsLines_iff]
  simp only [table, Traced.outcome_bind]
  cases (record.fieldsLines record.fields).outcome <;> simp [bind, Except.bind]

end Record

/-- All tables are generated exactly when every field has its clause. -/
theorem exists_tables_iff {records : List Record} :
    (∃ code, (tables records).outcome = .ok code) ↔
      ∀ record ∈ records, ∀ field ∈ record.fields, field.HasClause := by
  induction records with
  | nil => simp [tables]
  | cons record rest ih =>
      rw [List.forall_mem_cons, ← ih, ← record.exists_table_iff]
      simp only [tables, Traced.outcome_bind, Traced.pure_eq]
      exact exists_both_eq_ok_iff

end Fieldmap
