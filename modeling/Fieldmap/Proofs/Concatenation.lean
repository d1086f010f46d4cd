import Fieldmap.Proofs.CompileSound
import Fieldmap.Proofs.Grammar.Completeness
import Fieldmap.Proofs.Seam
import Mathlib.Data.List.Find

/-!
# Specifications one below the other

Two specifications make one. Its records are those of the first and then those of the
second, moved down, and its tables are theirs one behind the other. Only a table that
both define stands in the way.
-/

namespace Fieldmap

open Text (Position)

/-! ## Checking records together -/

theorem tableViolations_append (seen : List String) (left right : List Record) :
    tableViolations seen (left ++ right) =
      tableViolations seen left ++
        tableViolations ((left.map Record.name).reverse ++ seen) right := by
  induction left generalizing seen with
  | nil => rfl
  | cons record rest ih =>
      rw [List.cons_append, tableViolations, tableViolations, ih]
      simp

/-- Records that are valid by themselves are refused for the first name seen before. -/
theorem refuseFirst_tableViolations {seen : List String} {records : List Record}
    (valid : ValidTogether records) :
    refuseFirst (tableViolations seen records) =
      match records.find? fun record => record.name ∈ seen with
      | none => .ok ()
      | some record => .error (.duplicateTable record.name) := by
  rcases valid with ⟨distinct, each⟩
  induction records generalizing seen with
  | nil => rfl
  | cons record rest ih =>
      rw [List.map_cons, List.nodup_cons] at distinct
      rcases List.forall_mem_cons.mp each with ⟨recordValid, restValid⟩
      rw [tableViolations, Record.violations_eq_nil_iff.mpr recordValid, List.append_nil]
      by_cases repeated : record.name ∈ seen
      · simp [repeated, refuseFirst]
      · have others (other : Record) (member : other ∈ rest) :
            decide (other.name ∈ record.name :: seen) = decide (other.name ∈ seen) := by
          have different : other.name ≠ record.name := by
            intro same
            exact distinct.1 (List.mem_map.mpr ⟨other, member, same⟩)
          simp [different]
        have restRefused : refuseFirst (tableViolations (record.name :: seen) rest) = _ :=
          ih distinct.2 restValid
        rw [List.find?_congr others] at restRefused
        simpa [repeated] using restRefused

/-- Two lists of valid records are only refused together for a table that both define. -/
theorem checkRecords_append {left right : List Record} (leftValid : ValidTogether left)
    (rightValid : ValidTogether right) :
    checkRecords (left ++ right) =
      match right.find? fun record => record.name ∈ left.map Record.name with
      | none => .ok ()
      | some record => .error (.duplicateTable record.name) := by
  have noneLeft : tableViolations [] left = [] :=
    tableViolations_eq_nil_iff.mpr ⟨namedApart_unseen_iff.mpr leftValid.distinct, leftValid.each⟩
  rw [checkRecords, tableViolations_append, noneLeft, List.nil_append,
    refuseFirst_tableViolations rightValid]
  simp only [List.append_nil, List.mem_reverse]

/-! ## Tables one behind the other -/

theorem tables_append {left right : List Record} {leftCode rightCode : String}
    (leftTables : (tables left).outcome = .ok leftCode)
    (rightTables : (tables right).outcome = .ok rightCode) :
    (tables (left ++ right)).outcome = .ok (leftCode ++ rightCode) := by
  induction left generalizing leftCode with
  | nil =>
      cases leftTables
      simpa using rightTables
  | cons record rest ih =>
      obtain ⟨first, firstTable, leftTables⟩ := Traced.exists_of_outcome_bind leftTables
      obtain ⟨others, othersTables, leftTables⟩ := Traced.exists_of_outcome_bind leftTables
      cases leftTables
      simp only [List.cons_append, tables, Traced.outcome_bind, firstTable, ih othersTables]
      rw [String.append_assoc]
      rfl

/-- Records some lines further down. -/
def movedDown (lines : Nat) (records : List Record) : List Record :=
  records.map (Record.relocate (Position.down lines))

theorem find?_movedDown (lines : Nat) (records : List Record) (names : List String) :
    ((movedDown lines records).find? fun record => record.name ∈ names) =
      (records.find? fun record => record.name ∈ names).map
        (Record.relocate (Position.down lines)) :=
  List.find?_map

theorem ValidTogether.movedDown {records : List Record} (valid : ValidTogether records)
    (lines : Nat) : ValidTogether (movedDown lines records) := by
  rw [← checkRecords_eq_ok_iff_validTogether] at valid ⊢
  exact (checkRecords_relocate (Position.down lines) records).trans valid

namespace Spec

/-! ## Reading -/

/-- A specification goes on behind the records of another one. -/
theorem DerivesFile.append {left right : List Token} {leftRecords rightRecords : List Record}
    (leftDerived : DerivesFile left leftRecords) (rightDerived : DerivesFile right rightRecords) :
    DerivesFile (left.dropLast ++ right) (leftRecords ++ rightRecords) := by
  cases leftDerived with
  | intro leftSequence _ =>
      cases rightDerived with
      | intro rightSequence rightEnds =>
          rw [List.dropLast_concat, ← List.append_assoc]
          exact .intro (leftSequence.append rightSequence) rightEnds

/-- Moved tokens derive moved records. -/
theorem DerivesFile.relocate {text : String} {tokens : List Token} {records : List Record}
    (cut : Token.ofText text = .ok tokens) (derived : DerivesFile tokens records)
    (move : Position → Position) :
    DerivesFile (tokens.map (Token.relocate move)) (records.map (Record.relocate move)) := by
  obtain ⟨body, last, rfl, _, filled⟩ := Token.exists_ofText_eq cut
  have moved := recordsOf_relocate move (body ++ [last])
  rw [derived.recordsOf_eq, relocateResult_ok, List.map_append, List.map_singleton] at moved
  have movedFilled : ∀ token ∈ body.map (Token.relocate move), token.text ≠ "" :=
    List.forall_mem_map.mpr filled
  rw [List.map_append, List.map_singleton]
  exact derivesFile_of_recordsOf_concat movedFilled moved

/-- What both texts say is read from the texts one below the other. -/
theorem read_lines {first second : String} {firstRecords secondRecords : List Record}
    (firstRead : read first = .ok firstRecords) (secondRead : read second = .ok secondRecords) :
    read (first ++ "\n" ++ second) =
      .ok (firstRecords ++ movedDown (first.toList.count '\n' + 1) secondRecords) := by
  obtain ⟨firstTokens, firstCut, firstDerived⟩ := exists_derivesFile_of_read firstRead
  obtain ⟨secondTokens, secondCut, secondDerived⟩ := exists_derivesFile_of_read secondRead
  have moved := secondDerived.relocate secondCut (Position.down (first.toList.count '\n' + 1))
  rw [read, Token.ofText_lines firstCut secondCut]
  exact (firstDerived.append moved).recordsOf_eq

/-! ## Compiling -/

/-- Two specifications one below the other are compiled to the records of both, the
second ones moved down, and their tables are generated one behind the other. They are
only refused for the first table of the second that the first defines too. -/
theorem compile_lines {first second : String} {firstRecords secondRecords : List Record}
    (firstCompiled : (compile first).outcome = .ok firstRecords)
    (secondCompiled : (compile second).outcome = .ok secondRecords) :
    ((compile (first ++ "\n" ++ second)).outcome =
      match secondRecords.find? fun record => record.name ∈ firstRecords.map Record.name with
      | none => .ok (firstRecords ++ movedDown (first.toList.count '\n' + 1) secondRecords)
      | some record => .error (.violation (.duplicateTable record.name))) ∧
    ∃ firstCode secondCode, (tables firstRecords).outcome = .ok firstCode ∧
      (tables secondRecords).outcome = .ok secondCode ∧
      (tables (firstRecords ++ movedDown (first.toList.count '\n' + 1) secondRecords)).outcome =
        .ok (firstCode ++ secondCode) := by
  obtain ⟨firstRead, firstValid⟩ := compile_eq_ok_iff.mp firstCompiled
  obtain ⟨secondRead, secondValid⟩ := compile_eq_ok_iff.mp secondCompiled
  obtain ⟨firstCode, firstTables⟩ := firstValid.exists_tables
  obtain ⟨secondCode, secondTables⟩ := secondValid.exists_tables
  have movedTables := (tables_relocate (Position.down (first.toList.count '\n' + 1))
    secondRecords).symm ▸ secondTables
  refine ⟨?_, firstCode, secondCode, firstTables, secondTables,
    tables_append firstTables movedTables⟩
  rw [compile_outcome, read_lines firstRead secondRead]
  simp only [checkRecords_append firstValid (secondValid.movedDown _), find?_movedDown]
  cases secondRecords.find? fun record => record.name ∈ firstRecords.map Record.name <;> rfl

/-- A specification that ends in a comment without a line feed. -/
def openText : String := "\trecord a \x7b struct s; fieldmap () \x7d // é"

/-- A specification that begins with a line feed. -/
def lowerText : String := "\nrecord b \x7b fieldmap ((x, real, -1)) struct t; \x7d"

theorem compile_lines_openText :
    (compile openText).outcome = .ok [⟨"a", ⟨1, 2⟩, none, "s", [], .empty⟩] ∧
    (compile lowerText).outcome =
      .ok [⟨"b", ⟨2, 1⟩, none, "t", [⟨"x", ⟨2, 23⟩, .real, some "-1"⟩], .empty⟩] ∧
    (compile (openText ++ "\n" ++ lowerText)).outcome =
      .ok [⟨"a", ⟨1, 2⟩, none, "s", [], .empty⟩,
        ⟨"b", ⟨3, 1⟩, none, "t", [⟨"x", ⟨3, 23⟩, .real, some "-1"⟩], .empty⟩] ∧
    (compile (openText ++ "\n" ++ openText)).outcome =
      .error (.violation (.duplicateTable "a")) := by
  have upper : (compile openText).outcome = .ok [⟨"a", ⟨1, 2⟩, none, "s", [], .empty⟩] := by
    decide +kernel
  have lower : (compile lowerText).outcome =
      .ok [⟨"b", ⟨2, 1⟩, none, "t", [⟨"x", ⟨2, 23⟩, .real, some "-1"⟩], .empty⟩] := by
    decide +kernel
  exact ⟨upper, lower, (compile_lines upper lower).1, (compile_lines upper upper).1⟩

end Spec

end Fieldmap
