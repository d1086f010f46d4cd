import Fieldmap.Proofs.TableLines
import Mathlib.Data.List.Forall2

/-!
# What tables say

The tables of well-formed records on one line each tell everything about them but
positions, and the name of a structure that keeps no field. The lines of a table are
known one after another: names and types end at the first mark that cannot belong to
them, and the end of the fields cannot be taken for a field.

A header may look like any other line of a table. It is known by the line behind it:
that one begins with a tab, while the line behind the first line of a field, or behind
the end of the fields, begins with a space.
-/

namespace Fieldmap

open Text

/-! ## The same content -/

/-- Two fields with the same name, type and default, and with values kept in the same
place. -/
structure SameEntry (left right : Record) (leftField rightField : Field) : Prop where
  name : leftField.name = rightField.name
  type : leftField.type = rightField.type
  default : leftField.default = rightField.default
  target : left.target leftField = right.target rightField

/-- Two records that say the same up to positions. Their structures are the same as
soon as one field is kept there. -/
structure SameTable (left right : Record) : Prop where
  name : left.name = right.name
  header : left.header = right.header
  entries : List.Forall₂ (SameEntry left right) left.fields right.fields
  buffered : left.buffered = right.buffered
  structName : ∀ field ∈ left.fields, field.name ∉ left.buffered →
    left.structName = right.structName

/-! ## Targets -/

namespace Record

/-- A field whose target is its own name is buffered. -/
theorem target_eq_name_iff {record : Record} {field : Field} :
    record.target field = field.name ↔ field.name ∈ record.buffered := by
  unfold target
  split
  · rename_i buffered
    exact iff_of_true rfl buffered
  · rename_i unbuffered
    apply iff_of_false _ unbuffered
    intro same
    have lengths := congrArg String.length same
    simp only [String.length_append] at lengths
    have dot : ".".length = 1 := by decide
    omega

end Record

theorem exists_mem_of_forall₂ {α β : Type} {related : α → β → Prop} {left : List α}
    {right : List β} (relation : List.Forall₂ related left right) {value : α}
    (member : value ∈ left) : ∃ other ∈ right, related value other := by
  induction relation with
  | nil => cases member
  | cons pair _ ih =>
      rcases List.mem_cons.mp member with rfl | member
      · exact ⟨_, List.mem_cons_self, pair⟩
      · obtain ⟨other, otherMem, others⟩ := ih member
        exact ⟨other, List.mem_cons_of_mem _ otherMem, others⟩

theorem SameEntry.symm {left right : Record} {leftField rightField : Field}
    (same : SameEntry left right leftField rightField) :
    SameEntry right left rightField leftField :=
  ⟨same.name.symm, same.type.symm, same.default.symm, same.target.symm⟩

theorem SameEntry.mem_buffered_iff {left right : Record} {leftField rightField : Field}
    (same : SameEntry left right leftField rightField) :
    leftField.name ∈ left.buffered ↔ rightField.name ∈ right.buffered := by
  rw [← Record.target_eq_name_iff, ← Record.target_eq_name_iff, same.target, same.name]

/-- Records with the same entries buffer the same names. -/
theorem mem_buffered_of_entries {left right : Record} (leftValid : left.Valid)
    (entries : List.Forall₂ (SameEntry left right) left.fields right.fields) {name : String}
    (member : name ∈ left.buffered) : name ∈ right.buffered := by
  obtain ⟨field, fieldMem, rfl, _⟩ := leftValid.buffered name member
  obtain ⟨other, _, same⟩ := exists_mem_of_forall₂ entries fieldMem
  rw [same.name]
  exact same.mem_buffered_iff.mp member

theorem SameTable.of_entries {left right : Record} (leftValid : left.Valid)
    (rightValid : right.Valid) (name : left.name = right.name)
    (header : left.header = right.header)
    (entries : List.Forall₂ (SameEntry left right) left.fields right.fields) :
    SameTable left right := by
  have flipped : List.Forall₂ (SameEntry right left) right.fields left.fields :=
    (entries.imp fun _ _ same => same.symm).flip
  refine ⟨name, header, entries, ?_, ?_⟩
  · ext other
    exact ⟨mem_buffered_of_entries leftValid entries, mem_buffered_of_entries rightValid flipped⟩
  · intro field member unbuffered
    obtain ⟨other, _, same⟩ := exists_mem_of_forall₂ entries member
    have otherUnbuffered := mt same.mem_buffered_iff.mpr unbuffered
    have targets := same.target
    rw [Record.target, if_neg unbuffered, Record.target, if_neg otherUnbuffered, same.name,
      String.append_left_inj, String.append_left_inj] at targets
    exact targets

/-! ## The lines of one field -/

/-- What stands between the type of a field and its target. -/
def targetLead (type : FieldType) : String :=
  pad type.name typeColumn ++ ".addr." ++ type.name ++ " = " ++
    if type = .string then "" else "&"

namespace Record

variable {left right record : Record} {leftField rightField field : Field}

theorem toList_storageLine :
    (record.storageLine field).toList =
      "\t\x7b\"".toList ++ (field.name.toList ++ '"' ::
        (("," ++ pad field.name nameColumn).toList ++ (field.type.name.toList ++ ',' ::
          ((targetLead field.type).toList ++ ((record.target field).toList ++ [',']))))) := by
  unfold storageLine
  simp [targetLead]

/-- The first line of a field tells its name, its type and its target. -/
theorem storageLine_inj (leftNamed : isIdentifier leftField.name.toList)
    (rightNamed : isIdentifier rightField.name.toList)
    (same : left.storageLine leftField = right.storageLine rightField) :
    leftField.name = rightField.name ∧ leftField.type = rightField.type ∧
      left.target leftField = right.target rightField := by
  have noQuote {name : String} (named : isIdentifier name.toList) : '"' ∉ name.toList :=
    not_mem_of_isIdentifier named (by decide)
  have noComma (type : FieldType) : ',' ∉ type.name.toList := by
    cases type <;> decide
  have lines := congrArg String.toList same
  rw [toList_storageLine, toList_storageLine] at lines
  obtain ⟨names, lines⟩ :=
    append_cons_inj (noQuote leftNamed) (noQuote rightNamed) (List.append_cancel_left lines)
  have sameName := String.toList_inj.mp names
  rw [sameName] at lines
  obtain ⟨types, lines⟩ := append_cons_inj (noComma leftField.type) (noComma rightField.type)
    (List.append_cancel_left lines)
  have sameType := FieldType.name_inj (String.toList_inj.mp types)
  rw [sameType] at lines
  have targets := List.append_cancel_right (List.append_cancel_left lines)
  exact ⟨sameName, sameType, String.toList_inj.mp targets⟩

theorem clause_of_default {value : String} (notString : field.type ≠ .string)
    (default : field.default = some value) :
    record.clause field = .ok (".dflt." ++ field.type.name ++ " = " ++ value ++ "\x7d,") := by
  rw [clause, if_neg notString, default]

/-- The second line of a field tells its default. -/
theorem default_eq_of_clause (leftFits : leftField.DefaultFits)
    (rightFits : rightField.DefaultFits) (sameType : leftField.type = rightField.type)
    {text : String} (leftClause : left.clause leftField = .ok text)
    (rightClause : right.clause rightField = .ok text) :
    leftField.default = rightField.default := by
  by_cases isString : rightField.type = .string
  · rw [leftFits.absent (sameType.trans isString), rightFits.absent isString]
  · have leftNotString : leftField.type ≠ .string := sameType ▸ isString
    obtain ⟨leftValue, leftDefault, _⟩ := leftFits.present leftNotString
    obtain ⟨rightValue, rightDefault, _⟩ := rightFits.present isString
    rw [clause_of_default leftNotString leftDefault, sameType] at leftClause
    rw [clause_of_default isString rightDefault, ← leftClause, Except.ok.injEq,
      String.append_left_inj, String.append_right_inj] at rightClause
    rw [leftDefault, rightDefault, rightClause]

/-- The lines of a field tell all about it. -/
theorem sameEntry_of_lines (leftFormed : left.WellFormed) (rightFormed : right.WellFormed)
    (leftMem : leftField ∈ left.fields) (rightMem : rightField ∈ right.fields)
    (sameStorage : left.storageLine leftField = right.storageLine rightField) {text : String}
    (leftClause : left.clause leftField = .ok text)
    (rightClause : right.clause rightField = .ok text) :
    SameEntry left right leftField rightField := by
  obtain ⟨sameName, sameType, sameTarget⟩ := storageLine_inj
    (leftFormed.fieldIdentifiers leftField leftMem)
    (rightFormed.fieldIdentifiers rightField rightMem) sameStorage
  have sameDefault := default_eq_of_clause (leftFormed.defaults leftField leftMem)
    (rightFormed.defaults rightField rightMem) sameType leftClause rightClause
  exact ⟨sameName, sameType, sameDefault, sameTarget⟩

end Record

/-! ## The lines of a table -/

/-- The lines of a table behind those of its fields, and what follows the table. -/
def closing (rest : List String) : List String :=
  "\t\x7bNULL\x7d," :: "    \x7d;" :: "" :: rest

namespace Record

variable {left right record : Record}

/-- The lines of fields, with the end of the table, begin with a tab and then with a
space. -/
theorem exists_fieldsLines_closing {fields : List Field} {lines : List String}
    (result : (record.fieldsLines fields).outcome = .ok lines) (rest : List String) :
    ∃ first second more, lines ++ closing rest = first :: second :: more ∧
      first.toList.head? = some '\t' ∧ second.toList.head? = some ' ' := by
  cases fields with
  | nil =>
      cases result
      exact ⟨_, _, _, rfl, by decide, by decide⟩
  | cons field others =>
      obtain ⟨clause, otherLines, _, _, rfl⟩ := fieldsLines_cons_eq_ok result
      refine ⟨_, _, _, rfl, ?_, ?_⟩
      · rw [toList_storageLine]
        rfl
      · rw [String.toList_append, spaces, String.toList_ofList]
        rfl

theorem storageLine_ne_closing (field : Field) : record.storageLine field ≠ "\t\x7bNULL\x7d," := by
  intro same
  have third := congrArg (fun line => line.toList[2]?) same
  rw [toList_storageLine] at third
  have differs : some '"' ≠ "\t\x7bNULL\x7d,".toList[2]? := by decide
  exact differs third

/-- The lines of fields tell the fields, and where the table ends. -/
theorem fieldsLines_inj (leftFormed : left.WellFormed) (rightFormed : right.WellFormed)
    {leftFields rightFields : List Field} (leftWithin : leftFields ⊆ left.fields)
    (rightWithin : rightFields ⊆ right.fields) {leftLines rightLines : List String}
    (leftResult : (left.fieldsLines leftFields).outcome = .ok leftLines)
    (rightResult : (right.fieldsLines rightFields).outcome = .ok rightLines)
    {leftRest rightRest : List String}
    (same : leftLines ++ closing leftRest = rightLines ++ closing rightRest) :
    List.Forall₂ (SameEntry left right) leftFields rightFields ∧ leftRest = rightRest := by
  induction leftFields generalizing rightFields leftLines rightLines with
  | nil =>
      cases leftResult
      cases rightFields with
      | nil =>
          cases rightResult
          simp only [closing, List.nil_append, List.cons.injEq, true_and] at same
          exact ⟨.nil, same⟩
      | cons field others =>
          obtain ⟨_, _, _, _, rfl⟩ := fieldsLines_cons_eq_ok rightResult
          exact absurd (List.cons.inj same).1.symm (storageLine_ne_closing field)
  | cons leftField leftOthers ih =>
      obtain ⟨leftClause, _, leftClauseEq, leftOthersEq, rfl⟩ := fieldsLines_cons_eq_ok leftResult
      cases rightFields with
      | nil =>
          cases rightResult
          exact absurd (List.cons.inj same).1 (storageLine_ne_closing leftField)
      | cons rightField rightOthers =>
          obtain ⟨rightClause, _, rightClauseEq, rightOthersEq, rfl⟩ :=
            fieldsLines_cons_eq_ok rightResult
          rcases List.cons_subset.mp leftWithin with ⟨leftMem, leftWithin⟩
          rcases List.cons_subset.mp rightWithin with ⟨rightMem, rightWithin⟩
          simp only [List.cons_append, List.cons.injEq, String.append_right_inj] at same
          rcases same with ⟨sameStorage, rfl, sameOthers⟩
          have entry := sameEntry_of_lines leftFormed rightFormed leftMem rightMem sameStorage
            leftClauseEq rightClauseEq
          have others := ih leftWithin rightWithin leftOthersEq rightOthersEq sameOthers
          exact ⟨.cons entry others.1, others.2⟩

/-- A header stands out against the lines of fields: it makes the second line of a
table begin with a tab. -/
theorem fieldsLines_ne_header {leftFields rightFields : List Field}
    {leftLines rightLines : List String}
    (leftResult : (left.fieldsLines leftFields).outcome = .ok leftLines)
    (rightResult : (right.fieldsLines rightFields).outcome = .ok rightLines)
    (header : String) (leftRest rightRest : List String) :
    leftLines ++ closing leftRest ≠ header :: (rightLines ++ closing rightRest) := by
  intro same
  obtain ⟨_, second, _, leftEq, _, space⟩ := exists_fieldsLines_closing leftResult leftRest
  obtain ⟨first, _, _, rightEq, tab, _⟩ := exists_fieldsLines_closing rightResult rightRest
  rw [leftEq, rightEq, List.cons.injEq, List.cons.injEq] at same
  rw [same.2.1, tab] at space
  cases space

/-- A table tells whether it has a header, and which one. -/
theorem header_inj {leftFields rightFields : List Field} {leftLines rightLines : List String}
    (leftResult : (left.fieldsLines leftFields).outcome = .ok leftLines)
    (rightResult : (right.fieldsLines rightFields).outcome = .ok rightLines)
    {leftHeader rightHeader : Option String} {leftRest rightRest : List String}
    (same : leftHeader.toList ++ (leftLines ++ closing leftRest) =
      rightHeader.toList ++ (rightLines ++ closing rightRest)) :
    leftHeader = rightHeader ∧
      leftLines ++ closing leftRest = rightLines ++ closing rightRest := by
  cases leftHeader with
  | none =>
      cases rightHeader with
      | none => exact ⟨rfl, same⟩
      | some header => exact absurd same (fieldsLines_ne_header leftResult rightResult header _ _)
  | some header =>
      cases rightHeader with
      | none =>
          exact absurd same.symm (fieldsLines_ne_header rightResult leftResult header _ _)
      | some other =>
          rcases List.cons.inj same with ⟨sameHeader, sameLines⟩
          exact ⟨congrArg some sameHeader, sameLines⟩

theorem tableLines_append (fields rest : List String) :
    record.tableLines fields ++ rest =
      ("    const struct json_attr_t " ++ record.name ++ "[] = \x7b") ::
        (record.header.toList ++ (fields ++ closing rest)) := by
  simp [tableLines, closing]

/-- The lines of a table tell what it is about, and where it ends. -/
theorem tableLines_inj (leftFormed : left.WellFormed) (rightFormed : right.WellFormed)
    {leftLines rightLines : List String}
    (leftResult : (left.fieldsLines left.fields).outcome = .ok leftLines)
    (rightResult : (right.fieldsLines right.fields).outcome = .ok rightLines)
    {leftRest rightRest : List String}
    (same : left.tableLines leftLines ++ leftRest = right.tableLines rightLines ++ rightRest) :
    SameTable left right ∧ leftRest = rightRest := by
  rw [tableLines_append, tableLines_append, List.cons.injEq] at same
  rcases same with ⟨sameOpening, same⟩
  rw [String.append_left_inj, String.append_right_inj] at sameOpening
  obtain ⟨sameHeader, same⟩ := header_inj leftResult rightResult same
  obtain ⟨entries, sameRest⟩ := fieldsLines_inj leftFormed rightFormed (List.Subset.refl _)
    (List.Subset.refl _) leftResult rightResult same
  exact ⟨.of_entries leftFormed.toValid rightFormed.toValid sameOpening sameHeader entries,
    sameRest⟩

end Record

/-! ## The lines of tables -/

/-- The lines of tables tell what the tables are about. -/
theorem tablesLines_inj {left right : List Record}
    (leftFormed : ∀ record ∈ left, record.WellFormed)
    (rightFormed : ∀ record ∈ right, record.WellFormed) {lines : List String}
    (leftResult : tablesLines left = .ok lines) (rightResult : tablesLines right = .ok lines) :
    List.Forall₂ SameTable left right := by
  have tables_ne_nil {record : Record} {rest : List Record}
      (result : tablesLines (record :: rest) = .ok []) : False := by
    obtain ⟨_, _, _, _, nothing⟩ := tablesLines_cons_eq_ok result
    rw [record.tableLines_append] at nothing
    cases nothing
  induction left generalizing right lines with
  | nil =>
      cases leftResult
      cases right with
      | nil => exact .nil
      | cons record rest => exact (tables_ne_nil rightResult).elim
  | cons leftRecord leftOthers ih =>
      cases right with
      | nil =>
          cases rightResult
          exact (tables_ne_nil leftResult).elim
      | cons rightRecord rightOthers =>
          obtain ⟨leftLines, leftRest, leftFields, leftRestEq, rfl⟩ :=
            tablesLines_cons_eq_ok leftResult
          obtain ⟨rightLines, rightRest, rightFields, rightRestEq, same⟩ :=
            tablesLines_cons_eq_ok rightResult
          rcases List.forall_mem_cons.mp leftFormed with ⟨leftRecordFormed, leftFormed⟩
          rcases List.forall_mem_cons.mp rightFormed with ⟨rightRecordFormed, rightFormed⟩
          obtain ⟨sameTable, rfl⟩ := Record.tableLines_inj leftRecordFormed rightRecordFormed
            leftFields rightFields same
          exact .cons sameTable (ih leftFormed rightFormed leftRestEq rightRestEq)

/-! ## Tables of the same content -/

theorem SameEntry.fieldLines_outcome {left right : Record} {leftField rightField : Field}
    (same : SameEntry left right leftField rightField) (sameName : left.name = right.name) :
    (left.fieldLines leftField).outcome = (right.fieldLines rightField).outcome := by
  have storage : left.storageLine leftField = right.storageLine rightField := by
    unfold Record.storageLine
    rw [same.name, same.type, same.target]
  have clause : left.clause leftField = right.clause rightField := by
    rw [Record.clause, Record.clause, same.name, same.type, same.target, same.default, sameName]
  rw [left.fieldLines_outcome, right.fieldLines_outcome, storage, clause]

theorem fieldsLines_outcome_of_entries {left right : Record} (sameName : left.name = right.name)
    {leftFields rightFields : List Field}
    (entries : List.Forall₂ (SameEntry left right) leftFields rightFields) :
    (left.fieldsLines leftFields).outcome = (right.fieldsLines rightFields).outcome := by
  induction entries with
  | nil => rfl
  | cons same _ ih =>
      simp only [Record.fieldsLines, Traced.outcome_bind, same.fieldLines_outcome sameName, ih]

/-- Records of the same content have the same tables. -/
theorem tables_outcome_of_sameTable {left right : List Record}
    (same : List.Forall₂ SameTable left right) :
    (tables left).outcome = (tables right).outcome := by
  rw [tables_outcome, tables_outcome]
  congr 1
  induction same with
  | nil => rfl
  | @cons leftRecord rightRecord _ _ sameTable _ ih =>
      have lines := fieldsLines_outcome_of_entries sameTable.name sameTable.entries
      have around (fields : List String) :
          leftRecord.tableLines fields = rightRecord.tableLines fields := by
        rw [Record.tableLines, Record.tableLines, sameTable.name, sameTable.header]
      simp only [tablesLines, lines, around, ih]

namespace Spec

/-- The tables of two compiled specifications are the same exactly when their records
say the same, one by one, up to positions. -/
theorem tables_eq_iff_sameTable {leftText rightText : String} {left right : List Record}
    (leftCompiled : (compile leftText).outcome = .ok left)
    (rightCompiled : (compile rightText).outcome = .ok right)
    (leftLine : ∀ record ∈ left, record.OneLine) (rightLine : ∀ record ∈ right, record.OneLine) :
    (tables left).outcome = (tables right).outcome ↔ List.Forall₂ SameTable left right := by
  constructor
  · intro same
    have leftFormed := wellFormed_of_compile leftCompiled
    have rightFormed := wellFormed_of_compile rightCompiled
    obtain ⟨leftLines, leftResult⟩ := (compile_eq_ok_iff.mp leftCompiled).2.exists_tablesLines
    obtain ⟨rightLines, rightResult⟩ := (compile_eq_ok_iff.mp rightCompiled).2.exists_tablesLines
    rw [tables_outcome, tables_outcome, leftResult, rightResult] at same
    have sameLines := unlines_inj (oneLine_tablesLines leftFormed leftLine leftResult)
      (oneLine_tablesLines rightFormed rightLine rightResult) (Except.ok.inj same)
    subst sameLines
    exact tablesLines_inj leftFormed rightFormed leftResult rightResult
  · exact tables_outcome_of_sameTable

/-- A specification with a header that looks like the end of a table. -/
def endHeaderText : String :=
  "record a \x7b header \"\\t\x7bNULL\x7d,\"; struct p;\n" ++
    "fieldmap ((x, string, None)) buffered (x); \x7d"

/-- The same with another layout, and with another structure that keeps no field. -/
def otherLayoutText : String :=
  "record a \x7b fieldmap ((x, string, None),) // one field\n" ++
    "struct q; buffered (x,); header \"\\u0009\x7bNULL\x7d,\"; \x7d"

/-- What both texts say. -/
def endHeaderRecord (structName : String) (position : Position) : Record :=
  ⟨"a", ⟨1, 1⟩, some "\t\x7bNULL\x7d,", structName, [⟨"x", position, .string, none⟩],
    .ofList ["x"]⟩

theorem sameTable_endHeaderRecord :
    (compile endHeaderText).outcome = .ok [endHeaderRecord "p" ⟨2, 12⟩] ∧
    (compile otherLayoutText).outcome = .ok [endHeaderRecord "q" ⟨1, 23⟩] ∧
    (∀ record ∈ [endHeaderRecord "p" ⟨2, 12⟩], record.OneLine) ∧
    (∀ record ∈ [endHeaderRecord "q" ⟨1, 23⟩], record.OneLine) ∧
    (tables [endHeaderRecord "p" ⟨2, 12⟩]).outcome =
      (tables [endHeaderRecord "q" ⟨1, 23⟩]).outcome ∧
    List.Forall₂ SameTable [endHeaderRecord "p" ⟨2, 12⟩] [endHeaderRecord "q" ⟨1, 23⟩] := by
  have compiled : (compile endHeaderText).outcome = .ok [endHeaderRecord "p" ⟨2, 12⟩] := by
    decide +kernel
  have otherCompiled : (compile otherLayoutText).outcome = .ok [endHeaderRecord "q" ⟨1, 23⟩] := by
    decide +kernel
  have oneLine : ∀ record ∈ [endHeaderRecord "p" ⟨2, 12⟩], record.OneLine := by decide
  have otherOneLine : ∀ record ∈ [endHeaderRecord "q" ⟨1, 23⟩], record.OneLine := by decide
  have same : (tables [endHeaderRecord "p" ⟨2, 12⟩]).outcome =
      (tables [endHeaderRecord "q" ⟨1, 23⟩]).outcome := by
    decide +kernel
  exact ⟨compiled, otherCompiled, oneLine, otherOneLine, same,
    (tables_eq_iff_sameTable compiled otherCompiled oneLine otherOneLine).mp same⟩

end Spec

end Fieldmap
