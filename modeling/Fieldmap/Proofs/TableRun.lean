import Fieldmap.Proofs.InTurn
import Fieldmap.Proofs.Tables

/-!
# How tables are generated

Tables are generated for records in order, and for the fields of a record in order. A field
that needs a default and has none ends this at once: there is no text then, and the events
reported are those up to this field. The report that a name is wide comes in front of the
question for a default, and the report on a table behind all of its fields.

A name is reported as wide exactly where the storage clause of its line is out of column.
-/

namespace Fieldmap

open Text

/-! ## Fields -/

/-- A field that needs a default and has none. -/
structure Field.LacksDefault (field : Field) : Prop where
  needed : field.type ≠ .string
  absent : field.default = none

theorem Field.lacksDefault_iff {field : Field} : field.LacksDefault ↔ ¬ field.HasClause := by
  unfold HasClause
  constructor
  · intro lacks clause
    rcases clause with isString | ⟨value, present⟩
    · exact lacks.needed isString
    · rw [lacks.absent] at present
      cases present
  · intro noClause
    rw [not_or, not_exists] at noClause
    exact ⟨noClause.1, Option.eq_none_iff_forall_ne_some.mpr noClause.2⟩

namespace Record

variable (record : Record)

/-- What is reported on a field: that its name is wide, if it is. -/
def fieldEvents (field : Field) : List Event :=
  if nameColumn < field.name.utf8ByteSize then [.wideName record.name field.name] else []

/-- What is reported on a table: its wide names, and then that it was generated. -/
def tableEvents : List Event :=
  record.fields.flatMap record.fieldEvents ++ [.tableGenerated record.name record.fields.length]

theorem fieldLines_eq (field : Field) :
    record.fieldLines field =
      ⟨(record.clause field).map fun clause =>
        [record.storageLine field, spaces clauseIndent ++ clause], record.fieldEvents field⟩ := by
  apply Traced.ext
  · exact record.fieldLines_outcome field
  · unfold fieldLines fieldEvents
    split <;> cases record.clause field <;> rfl

theorem exists_fieldLines_eq {field : Field} (hasClause : field.HasClause) :
    ∃ lines, record.fieldLines field = ⟨.ok lines, record.fieldEvents field⟩ := by
  rcases record.exists_clause_iff.mpr hasClause with ⟨clause, found⟩
  rw [fieldLines_eq, found]
  exact ⟨_, rfl⟩

theorem fieldLines_of_lacksDefault {field : Field} (lacks : field.LacksDefault) :
    record.fieldLines field =
      ⟨.error ⟨field.type, field.name, record.name⟩, record.fieldEvents field⟩ := by
  rw [fieldLines_eq, clause, if_neg lacks.needed, lacks.absent]
  rfl

theorem inTurn_fieldsLines : InTurn record.fieldLines (· ++ ·) [] record.fieldsLines :=
  ⟨rfl, fun _ _ => rfl⟩

/-! ## Tables -/

/-- A table whose fields all have their clauses is generated. -/
theorem exists_table_eq (hasClauses : ∀ field ∈ record.fields, field.HasClause) :
    ∃ block, record.table = ⟨.ok block, record.tableEvents⟩ := by
  rcases exists_forall₂ fun field member => record.exists_fieldLines_eq (hasClauses field member)
    with ⟨results, each⟩
  rw [table, record.inTurn_fieldsLines.of_ok each]
  exact ⟨_, rfl⟩

/-- A table ends at the first field that lacks a default. -/
theorem table_of_lacksDefault {front back : List Field} {field : Field}
    (fieldsEq : record.fields = front ++ field :: back)
    (hasClauses : ∀ earlier ∈ front, earlier.HasClause) (lacks : field.LacksDefault) :
    record.table = ⟨.error ⟨field.type, field.name, record.name⟩,
      (front ++ [field]).flatMap record.fieldEvents⟩ := by
  have lines : record.fieldsLines (front ++ field :: back) =
      ⟨.error ⟨field.type, field.name, record.name⟩,
        front.flatMap record.fieldEvents ++ record.fieldEvents field⟩ :=
    record.inTurn_fieldsLines.of_error
      (fun earlier member => record.exists_fieldLines_eq (hasClauses earlier member))
      (record.fieldLines_of_lacksDefault lacks)
  rw [table, fieldsEq, lines]
  simp

end Record

theorem inTurn_tables : InTurn Record.table (· ++ ·) "" tables :=
  ⟨rfl, fun _ _ => rfl⟩

theorem foldr_append_eq_join (blocks : List String) :
    blocks.foldr (· ++ ·) "" = String.join blocks := by
  induction blocks with
  | nil => rfl
  | cons block rest ih => rw [List.foldr_cons, ih, String.join_cons]

/-- All tables are generated one behind the other, and each is reported on. -/
theorem exists_tables_eq {records : List Record}
    (hasClauses : ∀ record ∈ records, ∀ field ∈ record.fields, field.HasClause) :
    ∃ blocks, List.Forall₂ (fun record block => record.table.outcome = .ok block) records blocks ∧
      tables records = ⟨.ok (String.join blocks), records.flatMap Record.tableEvents⟩ := by
  have generated (record : Record) (member : record ∈ records) :
      ∃ block, record.table = ⟨.ok block, record.tableEvents⟩ :=
    record.exists_table_eq (hasClauses record member)
  rcases exists_forall₂ generated with ⟨blocks, each⟩
  refine ⟨blocks, each.imp fun record block tableEq => ?_, ?_⟩
  · rw [tableEq]
  · rw [inTurn_tables.of_ok each, foldr_append_eq_join]

/-- The place where the generation of tables ends: the first field, in the order of records
and of their fields, that needs a default and has none. -/
structure EndsAt (records before : List Record) (record : Record) (front : List Field)
    (field : Field) : Prop where
  records : ∃ after, records = before ++ record :: after
  fields : ∃ back, record.fields = front ++ field :: back
  earlierRecords : ∀ earlier ∈ before, ∀ field ∈ earlier.fields, field.HasClause
  earlierFields : ∀ earlier ∈ front, earlier.HasClause
  lacksDefault : field.LacksDefault

theorem EndsAt.tables_eq {records before : List Record} {record : Record} {front : List Field}
    {field : Field} (ends : EndsAt records before record front field) :
    tables records = ⟨.error ⟨field.type, field.name, record.name⟩,
      before.flatMap Record.tableEvents ++ (front ++ [field]).flatMap record.fieldEvents⟩ := by
  rcases ends.records with ⟨after, rfl⟩
  rcases ends.fields with ⟨back, fieldsEq⟩
  apply inTurn_tables.of_error
  · intro earlier member
    exact earlier.exists_table_eq (ends.earlierRecords earlier member)
  · exact record.table_of_lacksDefault fieldsEq ends.earlierFields ends.lacksDefault

/-- Where some field lacks a default, there is a first one. -/
theorem exists_endsAt {records : List Record}
    (incomplete : ¬ ∀ record ∈ records, ∀ field ∈ record.fields, field.HasClause) :
    ∃ before record front field, EndsAt records before record front field := by
  rcases exists_first_of_not_forall incomplete with
    ⟨before, record, after, recordsEq, earlierRecords, lacking⟩
  rcases exists_first_of_not_forall lacking with
    ⟨front, field, back, fieldsEq, earlierFields, noClause⟩
  exact ⟨before, record, front, field, ⟨after, recordsEq⟩, ⟨back, fieldsEq⟩, earlierRecords,
    earlierFields, Field.lacksDefault_iff.mpr noClause⟩

/-! ## Columns -/

/-- What stands in front of the storage clause of a field: its padded name and type. -/
def Field.columns (field : Field) : String :=
  "\t\x7b\"" ++ field.name ++ "\"," ++ pad field.name nameColumn ++
    field.type.name ++ "," ++ pad field.type.name typeColumn

/-- The storage clause of a field. -/
def Record.storageClause (record : Record) (field : Field) : String :=
  ".addr." ++ field.type.name ++ " = " ++ (if field.type = .string then "" else "&") ++
    record.target field ++ ","

theorem Record.storageLine_eq (record : Record) (field : Field) :
    record.storageLine field = field.columns ++ record.storageClause field := by
  unfold storageLine Field.columns storageClause
  simp only [String.append_assoc]

theorem Text.utf8ByteSize_spaces (count : Nat) : (spaces count).utf8ByteSize = count := by
  rw [spaces, utf8ByteSize_ofList]
  induction count with
  | zero => rfl
  | succ count ih =>
      rw [List.replicate_succ, byteLength_cons, ih, Nat.add_comm]
      rfl

/-- A type is padded to the same width whatever it is; a name that fits is, too. -/
theorem Field.utf8ByteSize_columns (field : Field) :
    field.columns.utf8ByteSize = 28 + (field.name.utf8ByteSize - nameColumn) := by
  have opening : "\t\x7b\"".utf8ByteSize = 3 := by decide
  have closing : "\",".utf8ByteSize = 2 := by decide
  have comma : ",".utf8ByteSize = 1 := by decide
  have typeWidth : field.type.name.utf8ByteSize ≤ typeColumn := by
    cases field.type <;> decide
  have nameWidth : nameColumn = 12 := rfl
  have typeColumnWidth : typeColumn = 10 := rfl
  simp only [columns, String.utf8ByteSize_append, pad, utf8ByteSize_spaces, opening, closing, comma]
  omega

/-- Among the reports on some tables, a field's name is reported where it is wide. -/
theorem wideName_mem_iff {records : List Record} {record : Record} (member : record ∈ records)
    {field : Field} (fieldMem : field ∈ record.fields) :
    .wideName record.name field.name ∈ records.flatMap Record.tableEvents ↔
      nameColumn < field.name.utf8ByteSize := by
  simp only [List.mem_flatMap, Record.tableEvents, Record.fieldEvents, List.mem_append]
  constructor
  · intro reported
    rcases reported with ⟨_, _, ⟨other, _, inField⟩ | inEnd⟩
    · split at inField
      · rename_i wide
        rw [List.mem_singleton, Event.wideName.injEq] at inField
        rw [inField.2]
        exact wide
      · cases inField
    · simp at inEnd
  · intro wide
    refine ⟨record, member, .inl ⟨field, fieldMem, ?_⟩⟩
    rw [if_pos wide]
    exact List.mem_singleton_self _

theorem Field.columns_ne_iff (field : Field) :
    field.columns.utf8ByteSize ≠ 28 ↔ nameColumn < field.name.utf8ByteSize := by
  rw [field.utf8ByteSize_columns]
  omega

/-- The first line of a field: where its storage clause stands, and whether it is reported
to stand out of column. -/
structure Record.Aligned (record : Record) (field : Field) : Prop where
  first : ∀ lines, (record.fieldLines field).outcome = .ok lines →
    lines.head? = some (field.columns ++ record.storageClause field)
  start : field.columns.utf8ByteSize = 28 + (field.name.utf8ByteSize - 12)
  reported : field.columns.utf8ByteSize ≠ 28 ↔
    .wideName record.name field.name ∈ (record.fieldLines field).events

theorem Record.aligned (record : Record) (field : Field) : record.Aligned field := by
  constructor
  · intro lines result
    rw [record.fieldLines_outcome] at result
    rcases exists_of_map_eq_ok result with ⟨clause, _, linesEq⟩
    rw [← linesEq, ← record.storageLine_eq]
    rfl
  · exact field.utf8ByteSize_columns
  · rw [field.columns_ne_iff, record.fieldLines_eq, fieldEvents]
    split <;> simp_all

/-- Tables are generated all or not at all. Where every field that needs a default has one,
they stand one behind the other, and every table is reported on in order. Else generation
ends at the first field that lacks its default, which the error names; what is reported
is what concerns the tables before and the fields up to this one. Only wide names are warned
of, and they are those behind which the storage clause is out of column. -/
theorem tables_allOrNothing (records : List Record) :
    ((∃ code, (tables records).outcome = .ok code) ↔
      ∀ record ∈ records, ∀ field ∈ record.fields,
        field.type ≠ .string → ∃ value, field.default = some value) ∧
    (∀ code, (tables records).outcome = .ok code →
      (∃ blocks, List.Forall₂ (fun record block => record.table.outcome = .ok block)
        records blocks ∧ code = String.join blocks) ∧
      (tables records).events = records.flatMap Record.tableEvents ∧
      ∀ record ∈ records, ∀ field ∈ record.fields, field.columns.utf8ByteSize ≠ 28 ↔
        .wideName record.name field.name ∈ (tables records).events) ∧
    (∀ missing, (tables records).outcome = .error missing →
      ∃ before record front field, EndsAt records before record front field ∧
        missing = ⟨field.type, field.name, record.name⟩ ∧
        (tables records).events = before.flatMap Record.tableEvents ++
          (front ++ [field]).flatMap record.fieldEvents) ∧
    (∀ table field count, (Event.wideName table field).level = .warn ∧
      (Event.tableGenerated table count).level = .debug ∧
      (Event.tableGenerated table count).message = "generated attribute table") ∧
    ∀ record field, Record.Aligned record field := by
  have complete_iff : (∃ code, (tables records).outcome = .ok code) ↔
      ∀ record ∈ records, ∀ field ∈ record.fields, field.HasClause := exists_tables_iff
  refine ⟨?_, ?_, ?_, fun _ _ _ => ⟨rfl, rfl, rfl⟩, Record.aligned⟩
  · rw [complete_iff]
    simp only [Field.HasClause, or_iff_not_imp_left]
  · intro code result
    rcases exists_tables_eq (complete_iff.mp ⟨code, result⟩) with ⟨blocks, each, tablesEq⟩
    rw [tablesEq] at result ⊢
    cases result
    refine ⟨⟨blocks, each, rfl⟩, rfl, ?_⟩
    intro record member field fieldMem
    rw [field.columns_ne_iff, wideName_mem_iff member fieldMem]
  · intro missing result
    have incomplete : ¬ ∀ record ∈ records, ∀ field ∈ record.fields, field.HasClause := by
      intro complete
      rcases complete_iff.mpr complete with ⟨code, generated⟩
      rw [result] at generated
      cases generated
    rcases exists_endsAt incomplete with ⟨before, record, front, field, ends⟩
    have tablesEq := ends.tables_eq
    rw [tablesEq] at result ⊢
    cases result
    exact ⟨before, record, front, field, ends, rfl, rfl⟩

end Fieldmap
