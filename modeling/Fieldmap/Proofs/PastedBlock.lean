import Fieldmap.Proofs.ReadBack
import Fieldmap.Spec.FieldmapBlock

/-!
# Fieldmap blocks pasted into a record

A fieldmap block is meant to be pasted into a record by hand. Its defaults are copied
as they stand, without quotes, so the block is read back where every default is a
single bare word of its own.
-/

namespace Fieldmap.Spec

open Text

/-- A record with nothing but a structure and the block of some fields. -/
def pasted (name structName : String) (fields : List Field) : String :=
  "record " ++ name ++ " \x7b\nstruct " ++ structName ++ ";\n" ++ fieldmapBlock fields ++ "\x7d\n"

/-- The record that a pasted block is meant to be. -/
def pastedRecord (name structName : String) (fields : List Field) : Record :=
  ⟨name, .nowhere, none, structName, fields.map Field.unplaced, .empty⟩

/-- A default that may stand without quotes. -/
inductive BareDefault : Option String → Prop where
  | absent : BareDefault none
  | identifier {value : String} : isIdentifier value.toList → value ≠ absentDefault →
      BareDefault (some value)
  | number {value : String} : isNumber value.toList → BareDefault (some value)

namespace BareDefault

variable {default : Option String}

theorem isWord (bare : BareDefault default) : IsWord (default.getD absentDefault).toList := by
  cases bare with
  | absent => exact .identifier isIdentifier_absentDefault
  | identifier identifier _ => exact .identifier identifier
  | number number => exact .number number

theorem derives (bare : BareDefault default) :
    DerivesDefault (Token.bare (default.getD absentDefault)) default := by
  cases bare with
  | absent => exact .absent (Token.isWord_bare absentDefault)
  | @identifier value identifier different =>
      exact .identifier (Token.is_bare_identifier identifier)
        (mt Token.isWord_iff.mp different)
  | @number value number => exact .number (show (Token.bare value).is .number from number)

end BareDefault

theorem bareDefault_defaultLiteral? (type : FieldType) : BareDefault type.defaultLiteral? := by
  cases type with
  | string => exact .absent
  | boolean => exact .identifier (by decide) (by decide)
  | _ => exact .number (by decide)

/-- A field that its entry in a block describes. -/
structure Pastable (field : Field) : Prop where
  identifier : isIdentifier field.name.toList
  default : BareDefault field.default

/-- The words of a field's entry in a block. -/
def lineWords (field : Field) : List String :=
  entryWords field (field.default.getD absentDefault)

/-- The words in front of the entries of a pasted block. -/
def headWords (name structName : String) : List String :=
  ["record", name, Mark.leftBrace.text] ++
    ([Item.struct.keyword, structName, Mark.semicolon.text] ++
      [Item.fieldmap.keyword, Mark.leftParen.text])

/-- The words of a pasted block and the record around it. -/
def pastedWords (name structName : String) (fields : List Field) : List String :=
  headWords name structName ++ fields.flatMap lineWords ++
    [Mark.rightParen.text, Mark.rightBrace.text]

theorem isBlank_replicate (count : Nat) : ∀ c ∈ List.replicate count ' ', isBlank c = true := by
  intro c member
  rw [(List.mem_replicate.mp member).2]
  exact isBlank_space

theorem isBlank_pad (text : String) (width : Nat) :
    ∀ c ∈ (pad text width).toList, isBlank c = true := by
  rw [pad, spaces, String.toList_ofList]
  exact isBlank_replicate _

/-! ## The pasted text spells its words -/

/-- A pasted text up to the first entry of its block. -/
def pastedHead (name structName : String) : String :=
  "record " ++ name ++ " \x7b\nstruct " ++ structName ++ ";\n    fieldmap (\n"

/-- The line of an entry in a pasted text. -/
def lineChars (field : Field) : List Char :=
  (entryLine field).toList ++ ['\n']

theorem toList_pasted (name structName : String) (fields : List Field) :
    (pasted name structName fields).toList = (pastedHead name structName).toList ++
      (fields.flatMap lineChars ++ (List.replicate 4 ' ' ++ ")\n\x7d\n".toList)) := by
  have lineEq : lineChars = fun field => (entryLine field).toList ++ ['\n'] := rfl
  simp [pasted, pastedHead, fieldmapBlock, unlines, lineEq, List.flatMap_map]

theorem toList_entryLine (field : Field) :
    (entryLine field).toList = List.replicate 8 ' ' ++ '(' :: (field.name.toList ++
      ',' :: ((pad field.name entryColumn).toList ++ (field.type.name.toList ++
        ',' :: ((pad field.type.name entryColumn).toList ++
          ((field.default.getD absentDefault).toList ++ [')', ',']))))) := by
  unfold entryLine
  simp

theorem leads_pastedHead {name structName : String} (named : isIdentifier name.toList)
    (structNamed : isIdentifier structName.toList) :
    Leads (pastedHead name structName).toList (headWords name structName) := by
  intro text rest spells
  have block := Spells.blanks (isBlank_replicate 4)
    (.wordBlank (.identifier Item.fieldmap.isIdentifier_keyword) isBlank_space
      (.mark .leftParen (.blank isBlank_lineFeed spells)))
  have struct := Spells.wordBlank (.identifier Item.struct.isIdentifier_keyword) isBlank_space
    (.wordMark (.identifier structNamed) .semicolon (.blank isBlank_lineFeed block))
  have whole := Spells.wordBlank (.identifier isIdentifier_recordKeyword) isBlank_space
    (.wordBlank (.identifier named) isBlank_space
      (.mark .leftBrace (.blank isBlank_lineFeed struct)))
  simpa [pastedHead, headWords, Mark.char, Item.keyword] using whole

theorem leads_lineChars {field : Field} (pastable : Pastable field) :
    Leads (lineChars field) (lineWords field) := by
  intro text rest spells
  have entry := leads_entry pastable.identifier pastable.default.isWord
    (isBlank_pad field.name entryColumn) (isBlank_pad field.type.name entryColumn) _ _
    (.blank isBlank_lineFeed spells)
  have whole := Spells.blanks (isBlank_replicate 8) entry
  simpa [lineChars, toList_entryLine, lineWords] using whole

/-- A pasted text spells its words up to any entry, if those before it are pastable. -/
theorem leads_entries {name structName : String} {fields : List Field}
    (named : isIdentifier name.toList) (structNamed : isIdentifier structName.toList)
    (pastable : ∀ field ∈ fields, Pastable field) :
    Leads ((pastedHead name structName).toList ++ fields.flatMap lineChars)
      (headWords name structName ++ fields.flatMap lineWords) :=
  (leads_pastedHead named structNamed).append
    (Leads.flatMap fun field member => leads_lineChars (pastable field member))

theorem spells_pasted {name structName : String} {fields : List Field}
    (named : isIdentifier name.toList) (structNamed : isIdentifier structName.toList)
    (pastable : ∀ field ∈ fields, Pastable field) :
    Spells (pasted name structName fields).toList (pastedWords name structName fields) := by
  have closing := Spells.blanks (isBlank_replicate 4)
    (.mark .rightParen (.blank isBlank_lineFeed (.mark .rightBrace (.blank isBlank_lineFeed .nil))))
  have whole := leads_entries named structNamed pastable _ _ closing
  rw [toList_pasted, pastedWords, ← List.append_assoc]
  exact whole

/-! ## Its words derive the record -/

theorem sequence_lines {fields : List Field} (pastable : ∀ field ∈ fields, Pastable field) :
    Sequence DerivesEntry ((fields.flatMap lineWords).map Token.bare)
      (fields.map Field.unplaced) :=
  Sequence.flatMap_bare fun field member =>
    derivesEntry_bare (pastable field member).identifier (pastable field member).default.derives

theorem derivesRecord_pasted {name structName : String} {fields : List Field}
    (named : isIdentifier name.toList) (structNamed : isIdentifier structName.toList)
    (pastable : ∀ field ∈ fields, Pastable field) :
    DerivesRecord ((pastedWords name structName fields).map Token.bare)
      (pastedRecord name structName fields) := by
  have struct := DerivesItem.struct (Token.isWord_bare Item.struct.keyword)
    (.bare (Token.is_bare_identifier structNamed))
    (Token.is_bare_mark .semicolon)
  have fieldmap := DerivesItem.fieldmap (Token.isWord_bare Item.fieldmap.keyword)
    (Token.is_bare_mark .leftParen) (sequence_lines pastable) (Token.is_bare_mark .rightParen)
  have items : Sequence DerivesItem _ [.struct structName, .fieldmap (fields.map Field.unplaced)] :=
    .cons struct (.cons fieldmap .nil)
  have gathers : Gathers (pastedRecord name structName fields)
      [.struct structName, .fieldmap (fields.map Field.unplaced)] :=
    ⟨by simp [pastedRecord], by simp [pastedRecord], by simp [pastedRecord],
      by simp [pastedRecord]⟩
  have whole := DerivesRecord.intro (Token.isWord_bare "record")
    (Token.is_bare_identifier named) (Token.is_bare_mark .leftBrace) items
    (Token.is_bare_mark .rightBrace) (by simp [ItemContent.item]) gathers rfl rfl
  simpa [pastedWords, headWords] using whole

theorem derivesFile_pasted {name structName : String} {fields : List Field}
    (named : isIdentifier name.toList) (structNamed : isIdentifier structName.toList)
    (pastable : ∀ field ∈ fields, Pastable field) :
    DerivesFile ((pastedWords name structName fields ++ [""]).map Token.bare)
      [pastedRecord name structName fields] := by
  have record := derivesRecord_pasted named structNamed pastable
  have sequence : Sequence DerivesRecord _ [pastedRecord name structName fields] :=
    .cons record .nil
  rw [List.append_nil] at sequence
  rw [List.map_append]
  exact .intro sequence rfl

/-- A pasted block is compiled to the record it is meant to be, if that passes its
check. -/
theorem compile_pasted_outcome {name structName : String} {fields : List Field}
    (named : isIdentifier name.toList) (structNamed : isIdentifier structName.toList)
    (pastable : ∀ field ∈ fields, Pastable field) :
    ∃ placed, placed.map Record.unplaced = [pastedRecord name structName fields] ∧
      (compile (pasted name structName fields)).outcome =
        match checkRecords [pastedRecord name structName fields] with
        | .error violation => .error (.violation violation)
        | .ok () => .ok placed :=
  compile_outcome_of_spells (spells_pasted named structNamed pastable)
    (derivesFile_pasted named structNamed pastable)

end Fieldmap.Spec
