import Fieldmap.Proofs.CompileSound
import Fieldmap.Proofs.LexemeShape

/-!
# The lines of tables

The tables of records are lines, each ended by a line feed. Where no text of a record
holds a line feed of its own, no line does, and the lines are known from the text.
-/

namespace Fieldmap

open Text

/-! ## Texts cut at a mark -/

/-- Two texts that are cut at the first occurrence of one character. -/
theorem append_cons_inj {mark : Char} {left right leftRest rightRest : List Char}
    (leftFree : mark ∉ left) (rightFree : mark ∉ right)
    (same : left ++ mark :: leftRest = right ++ mark :: rightRest) :
    left = right ∧ leftRest = rightRest := by
  have upToMark {front : List Char} (free : mark ∉ front) (rest : List Char) :
      (front ++ mark :: rest).takeWhile (· != mark) = front := by
    apply takeWhile_append_stop
    · intro c member
      exact bne_iff_ne.mpr fun isMark => free (isMark ▸ member)
    · simp
  have fronts : left = right := by
    rw [← upToMark leftFree leftRest, same, upToMark rightFree]
  subst fronts
  exact ⟨rfl, (List.cons.inj (List.append_cancel_left same)).2⟩

/-! ## Texts on one line -/

/-- A text without a line feed. -/
def OneLine (text : String) : Prop :=
  '\n' ∉ text.toList

instance (text : String) : Decidable (OneLine text) :=
  inferInstanceAs (Decidable ('\n' ∉ text.toList))

namespace OneLine

theorem append_iff {left right : String} :
    OneLine (left ++ right) ↔ OneLine left ∧ OneLine right := by
  rw [OneLine, String.toList_append, List.mem_append, not_or]
  rfl

theorem spaces (count : Nat) : OneLine (spaces count) := by
  intro member
  rw [Text.spaces, String.toList_ofList] at member
  exact absurd (List.eq_of_mem_replicate member) (by decide)

theorem pad (text : String) (width : Nat) : OneLine (pad text width) :=
  spaces _

theorem typeName (type : FieldType) : OneLine type.name := by
  cases type <;> decide

end OneLine

namespace Text

/-! ## Lines -/

theorem unlines_append (left right : List String) :
    unlines (left ++ right) = unlines left ++ unlines right := by
  simp [unlines, String.ofList_append]

/-- Lines without line feeds of their own are known from the text that they make up. -/
theorem unlines_inj {left right : List String} (leftLines : ∀ line ∈ left, OneLine line)
    (rightLines : ∀ line ∈ right, OneLine line) (same : unlines left = unlines right) :
    left = right := by
  rw [unlines, unlines, String.ofList_inj] at same
  induction left generalizing right with
  | nil =>
      cases right with
      | nil => rfl
      | cons line rest => simp at same
  | cons line rest ih =>
      cases right with
      | nil => simp at same
      | cons other others =>
          rcases List.forall_mem_cons.mp leftLines with ⟨lineFree, restFree⟩
          rcases List.forall_mem_cons.mp rightLines with ⟨otherFree, othersFree⟩
          simp only [List.flatMap_cons, List.append_assoc, List.singleton_append] at same
          obtain ⟨sameLine, sameRest⟩ := append_cons_inj lineFree otherFree same
          rw [String.toList_inj.mp sameLine, ih restFree othersFree sameRest]

end Text

/-! ## The lines of records -/

/-- The lines of all tables of some records. -/
def tablesLines : List Record → Except MissingDefault (List String)
  | [] => .ok []
  | record :: rest => do
      let fields ← (record.fieldsLines record.fields).outcome
      let others ← tablesLines rest
      return record.tableLines fields ++ others

theorem tables_outcome (records : List Record) :
    (tables records).outcome = (tablesLines records).map unlines := by
  induction records with
  | nil => rfl
  | cons record rest ih =>
      simp only [tables, Record.table, tablesLines, Traced.outcome_bind, ih]
      cases (record.fieldsLines record.fields).outcome with
      | error missing => rfl
      | ok fields =>
          cases tablesLines rest with
          | error missing => rfl
          | ok others =>
              have parts := unlines_append (record.tableLines fields) others
              exact congrArg Except.ok parts.symm

/-- Records that are valid together have the lines of their tables. -/
theorem ValidTogether.exists_tablesLines {records : List Record} (valid : ValidTogether records) :
    ∃ lines, tablesLines records = .ok lines := by
  obtain ⟨code, result⟩ := valid.exists_tables
  rw [tables_outcome] at result
  obtain ⟨lines, linesResult, _⟩ := exists_of_map_eq_ok result
  exact ⟨lines, linesResult⟩

theorem tablesLines_cons_eq_ok {record : Record} {rest : List Record} {lines : List String}
    (result : tablesLines (record :: rest) = .ok lines) :
    ∃ fields others, (record.fieldsLines record.fields).outcome = .ok fields ∧
      tablesLines rest = .ok others ∧ lines = record.tableLines fields ++ others := by
  obtain ⟨fields, fieldsResult, result⟩ := exists_of_bind_eq_ok result
  obtain ⟨others, othersResult, result⟩ := exists_of_bind_eq_ok result
  cases result
  exact ⟨fields, others, fieldsResult, othersResult, rfl⟩

theorem Record.fieldsLines_cons_eq_ok {record : Record} {field : Field} {rest : List Field}
    {lines : List String} (result : (record.fieldsLines (field :: rest)).outcome = .ok lines) :
    ∃ clause others, record.clause field = .ok clause ∧
      (record.fieldsLines rest).outcome = .ok others ∧
      lines = record.storageLine field :: (spaces clauseIndent ++ clause) :: others := by
  obtain ⟨first, firstResult, result⟩ := Traced.exists_of_outcome_bind result
  obtain ⟨others, othersResult, result⟩ := Traced.exists_of_outcome_bind result
  cases result
  rw [record.fieldLines_outcome] at firstResult
  obtain ⟨clause, clauseResult, rfl⟩ := exists_of_map_eq_ok firstResult
  exact ⟨clause, others, clauseResult, othersResult, rfl⟩

/-! ## Records on one line each -/

/-- A record without line feeds in the texts that its table copies. -/
structure Record.OneLine (record : Record) : Prop where
  header : ∀ header ∈ record.header, Fieldmap.OneLine header
  structName : Fieldmap.OneLine record.structName
  defaults : ∀ field ∈ record.fields, ∀ value ∈ field.default, Fieldmap.OneLine value

theorem Record.oneLine_iff {record : Record} :
    record.OneLine ↔ (∀ header ∈ record.header, Fieldmap.OneLine header) ∧
      Fieldmap.OneLine record.structName ∧
      ∀ field ∈ record.fields, ∀ value ∈ field.default, Fieldmap.OneLine value :=
  ⟨fun oneLine => ⟨oneLine.header, oneLine.structName, oneLine.defaults⟩,
    fun rules => ⟨rules.1, rules.2.1, rules.2.2⟩⟩

instance (record : Record) : Decidable record.OneLine :=
  decidable_of_iff _ Record.oneLine_iff.symm

theorem OneLine.of_isIdentifier {name : String} (identifier : isIdentifier name.toList) :
    OneLine name :=
  not_mem_of_isIdentifier identifier (by decide)

namespace Record

variable {record : Record} {field : Field}

theorem oneLine_target (structLine : Fieldmap.OneLine record.structName)
    (nameLine : Fieldmap.OneLine field.name) : Fieldmap.OneLine (record.target field) := by
  unfold target
  split
  · exact nameLine
  · simp only [OneLine.append_iff, structLine, nameLine, true_and, and_true]
    decide

theorem oneLine_storageLine (structLine : Fieldmap.OneLine record.structName)
    (nameLine : Fieldmap.OneLine field.name) : Fieldmap.OneLine (record.storageLine field) := by
  have targetLine := oneLine_target structLine nameLine
  have reference : Fieldmap.OneLine (if field.type = .string then "" else "&") := by
    split <;> decide
  unfold storageLine
  simp only [OneLine.append_iff, nameLine, targetLine, reference, OneLine.pad, OneLine.typeName,
    and_true]
  decide

theorem oneLine_clause (structLine : Fieldmap.OneLine record.structName)
    (nameLine : Fieldmap.OneLine field.name)
    (defaultLine : ∀ value ∈ field.default, Fieldmap.OneLine value) {clause : String}
    (result : record.clause field = .ok clause) : Fieldmap.OneLine clause := by
  unfold Record.clause at result
  split at result
  · cases result
    have targetLine := oneLine_target structLine nameLine
    simp only [OneLine.append_iff, targetLine, and_true]
    decide
  · split at result
    · cases result
    · rename_i value present
      cases result
      have valueLine := defaultLine value present
      simp only [OneLine.append_iff, valueLine, OneLine.typeName, and_true]
      decide

theorem oneLine_fieldsLines (structLine : Fieldmap.OneLine record.structName)
    {fields : List Field} (nameLines : ∀ field ∈ fields, Fieldmap.OneLine field.name)
    (defaultLines : ∀ field ∈ fields, ∀ value ∈ field.default, Fieldmap.OneLine value)
    {lines : List String} (result : (record.fieldsLines fields).outcome = .ok lines) :
    ∀ line ∈ lines, Fieldmap.OneLine line := by
  induction fields generalizing lines with
  | nil =>
      cases result
      nofun
  | cons field rest ih =>
      rcases List.forall_mem_cons.mp nameLines with ⟨nameLine, restNames⟩
      rcases List.forall_mem_cons.mp defaultLines with ⟨defaultLine, restDefaults⟩
      obtain ⟨clause, others, clauseResult, othersResult, rfl⟩ := fieldsLines_cons_eq_ok result
      have clauseLine := oneLine_clause structLine nameLine defaultLine clauseResult
      simp only [List.forall_mem_cons]
      exact ⟨oneLine_storageLine structLine nameLine,
        OneLine.append_iff.mpr ⟨OneLine.spaces _, clauseLine⟩,
        ih restNames restDefaults othersResult⟩

theorem oneLine_tableLines (named : isIdentifier record.name.toList)
    (headerLine : ∀ header ∈ record.header, Fieldmap.OneLine header) {fields : List String}
    (fieldLines : ∀ line ∈ fields, Fieldmap.OneLine line) :
    ∀ line ∈ record.tableLines fields, Fieldmap.OneLine line := by
  have opening : Fieldmap.OneLine
      ("    const struct json_attr_t " ++ record.name ++ "[] = \x7b") := by
    simp only [OneLine.append_iff, OneLine.of_isIdentifier named, and_true]
    decide
  have closing : ∀ line ∈ ["\t\x7bNULL\x7d,", "    \x7d;", ""], Fieldmap.OneLine line := by
    decide
  intro line member
  rw [tableLines, List.mem_append, List.mem_append, List.mem_cons, Option.mem_toList] at member
  rcases member with ((rfl | inHeader) | inFields) | inClosing
  · exact opening
  · exact headerLine line inHeader
  · exact fieldLines line inFields
  · exact closing line inClosing

end Record

/-- The lines of tables hold no line feed where the texts of the records hold none. -/
theorem oneLine_tablesLines {records : List Record}
    (wellFormed : ∀ record ∈ records, record.WellFormed)
    (oneLine : ∀ record ∈ records, record.OneLine) {lines : List String}
    (result : tablesLines records = .ok lines) : ∀ line ∈ lines, OneLine line := by
  induction records generalizing lines with
  | nil =>
      cases result
      nofun
  | cons record rest ih =>
      rcases List.forall_mem_cons.mp wellFormed with ⟨recordFormed, restFormed⟩
      rcases List.forall_mem_cons.mp oneLine with ⟨recordLine, restLine⟩
      obtain ⟨fields, others, fieldsResult, othersResult, rfl⟩ := tablesLines_cons_eq_ok result
      have nameLines : ∀ field ∈ record.fields, OneLine field.name := by
        intro field member
        exact .of_isIdentifier (recordFormed.fieldIdentifiers field member)
      have fieldLines :=
        Record.oneLine_fieldsLines recordLine.structName nameLines recordLine.defaults fieldsResult
      rw [List.forall_mem_append]
      constructor
      · exact Record.oneLine_tableLines recordFormed.identifier recordLine.header fieldLines
      · exact ih restFormed restLine othersResult

end Fieldmap
