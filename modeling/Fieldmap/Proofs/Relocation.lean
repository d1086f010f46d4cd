import Fieldmap.Record.Table
import Fieldmap.Record.Validity
import Fieldmap.Spec.Reader

/-!
# Moving tokens about

The reader passes positions on and never looks at them. When the tokens of a
specification are moved, the same records are read, or the same fault is found, at
the positions moved alike. Neither the check of records nor their tables depend on
positions at all.
-/

namespace Fieldmap

open Text (Position)

section

variable (move : Position → Position)

/-- A token at another position. -/
def Token.relocate (token : Token) : Token :=
  ⟨token.text, move token.position⟩

/-- A field at another position. -/
def Field.relocate (field : Field) : Field :=
  { field with position := move field.position }

/-- A record and its fields at other positions. -/
def Record.relocate (record : Record) : Record :=
  { record with
    position := move record.position
    fields := record.fields.map (Field.relocate move) }

@[simp] theorem Token.isWord_relocate (token : Token) (word : String) :
    (token.relocate move).isWord word = token.isWord word := rfl

@[simp] theorem Token.text_relocate (token : Token) :
    (token.relocate move).text = token.text := rfl

namespace Spec

/-- A draft of a record at another position. -/
def Draft.relocate (draft : Draft) : Draft :=
  { draft with
    position := move draft.position
    name := draft.name.relocate move
    fields := draft.fields.map (List.map (Field.relocate move)) }

/-- A part of an entry at another position. -/
def EntryPhase.relocate : EntryPhase → EntryPhase
  | name => .name
  | nameEnd token => .nameEnd (token.relocate move)
  | type token => .type (token.relocate move)
  | typeEnd token fieldType => .typeEnd (token.relocate move) fieldType
  | default token fieldType => .default (token.relocate move) fieldType
  | close field => .close (field.relocate move)

/-- A phase whose parts have been read at other positions. -/
def Phase.relocate : Phase → Phase
  | records => .records
  | recordName position => .recordName (move position)
  | bodyOpen draft => .bodyOpen (draft.relocate move)
  | body draft => .body (draft.relocate move)
  | header draft => .header (draft.relocate move)
  | struct draft => .struct (draft.relocate move)
  | itemEnd draft => .itemEnd (draft.relocate move)
  | bufferedOpen draft => .bufferedOpen (draft.relocate move)
  | buffered draft names => .buffered (draft.relocate move) names
  | bufferedNext draft names => .bufferedNext (draft.relocate move) names
  | fieldmapOpen draft => .fieldmapOpen (draft.relocate move)
  | fieldmap draft fields =>
      .fieldmap (draft.relocate move) (fields.map (Field.relocate move))
  | entry draft fields part =>
      .entry (draft.relocate move) (fields.map (Field.relocate move)) (part.relocate move)
  | fieldmapNext draft fields =>
      .fieldmapNext (draft.relocate move) (fields.map (Field.relocate move))
  | finished => .finished

/-- A state whose parts have been read at other positions. -/
def State.relocate (state : State) : State :=
  ⟨state.records.map (Record.relocate move), state.phase.relocate move⟩

/-- The same fault at another position. -/
def Error.relocate (error : Error) : Error :=
  { error with position := move error.position }

/-- A result with what it holds moved, be it a value or an error. -/
def relocateResult {α : Type} (relocate : α → α) (result : Except Error α) : Except Error α :=
  (result.mapError (Error.relocate move)).map relocate

@[simp] theorem relocateResult_ok {α : Type} (relocate : α → α) (value : α) :
    relocateResult move relocate (.ok value) = .ok (relocate value) := rfl

/-- A choice between two results that are moved alike is moved alike. -/
theorem ite_relocate {α : Type} {relocate : α → α} {condition : Bool}
    {yes no movedYes movedNo : Except Error α}
    (yesEq : movedYes = relocateResult move relocate yes)
    (noEq : movedNo = relocateResult move relocate no) :
    (if condition then movedYes else movedNo) =
      relocateResult move relocate (if condition then yes else no) := by
  cases condition with
  | false => exact noEq
  | true => exact yesEq

/-! ## One token -/

@[simp] theorem Draft.has_relocate (draft : Draft) (item : Item) :
    (draft.relocate move).has item = draft.has item := by
  cases item <;> simp [has, relocate]

theorem Draft.open_relocate (draft : Draft) (token : Token) (item : Item) :
    (draft.relocate move).open (token.relocate move) item =
      relocateResult move (Phase.relocate move) (draft.open token item) := by
  simp only [Draft.open, has_relocate]
  split
  · rfl
  · cases item <;> rfl

theorem Phase.refusal_relocate (phase : Phase) (found : String) :
    (phase.relocate move).refusal found = phase.refusal found := by
  cases phase with
  | entry draft fields part => cases part <;> rfl
  | _ => rfl

theorem Phase.refuse_relocate {α : Type} (relocate : α → α) (phase : Phase) (token : Token) :
    ((phase.relocate move).refuse (token.relocate move) : Except Error α) =
      relocateResult move relocate (phase.refuse token) := by
  simp only [refuse, refusal_relocate]
  rfl

theorem literal_relocate (token : Token) :
    literal (token.relocate move) = relocateResult move id (literal token) := by
  simp only [literal, Token.text_relocate]
  split <;> rfl

theorem entryOrEnd_relocate (draft : Draft) (fields : List Field) (phase : Phase)
    (token : Token) :
    entryOrEnd (draft.relocate move) (fields.map (Field.relocate move)) (phase.relocate move)
        (token.relocate move) =
      relocateResult move (Phase.relocate move) (entryOrEnd draft fields phase token) :=
  ite_relocate move rfl (ite_relocate move rfl (phase.refuse_relocate move _ token))

theorem EntryPhase.step_relocate (draft : Draft) (fields : List Field) (part : EntryPhase)
    (token : Token) :
    (part.relocate move).step (draft.relocate move) (fields.map (Field.relocate move))
        (token.relocate move) =
      relocateResult move (Phase.relocate move) (part.step draft fields token) := by
  have refused := (Phase.entry draft fields part).refuse_relocate move (Phase.relocate move) token
  cases part with
  | name | nameEnd | typeEnd => exact ite_relocate move rfl refused
  | type nameToken =>
      refine ite_relocate move ?_ refused
      simp only [Token.text_relocate]
      split <;> rfl
  | default nameToken fieldType =>
      refine ite_relocate move ?_ (ite_relocate move ?_ refused)
      · simp only [Token.isWord_relocate, Token.text_relocate]
        rfl
      · simp only [literal_relocate]
        cases literal token <;> rfl
  | close field =>
      refine ite_relocate move ?_ refused
      simp [Phase.relocate]

/-- One more token leads to the moved phase, or is refused for the same fault. -/
theorem Phase.step_relocate (phase : Phase) (token : Token) :
    (phase.relocate move).step (token.relocate move) =
      relocateResult move (Phase.relocate move) (phase.step token) := by
  have refused := phase.refuse_relocate move (Phase.relocate move) token
  cases phase with
  | body draft =>
      simp only [Phase.relocate, Phase.step, Token.isWord_relocate]
      split
      · exact draft.open_relocate move token _
      · exact refused
  | header draft =>
      refine ite_relocate move ?_ refused
      simp only [literal_relocate]
      cases literal token <;> rfl
  | struct draft =>
      refine ite_relocate move ?_ (ite_relocate move rfl refused)
      simp only [literal_relocate]
      cases literal token <;> rfl
  | fieldmap draft fields => exact entryOrEnd_relocate move draft fields _ token
  | entry draft fields part => exact part.step_relocate move draft fields token
  | fieldmapNext draft fields =>
      exact ite_relocate move rfl (entryOrEnd_relocate move draft fields _ token)
  | finished => rfl
  | records | buffered | bufferedNext =>
      exact ite_relocate move rfl (ite_relocate move rfl refused)
  | recordName | bodyOpen | itemEnd | bufferedOpen | fieldmapOpen =>
      exact ite_relocate move rfl refused

theorem Draft.finish_relocate (draft : Draft) :
    (draft.relocate move).finish = relocateResult move (Record.relocate move) draft.finish := by
  rcases draft with ⟨position, name, header, structName, buffered, fields⟩
  cases structName with
  | none => rfl
  | some structName => cases fields <;> rfl

/-! ## Lists of tokens -/

theorem State.step_relocate (state : State) (token : Token) :
    (state.relocate move).step (token.relocate move) =
      relocateResult move (State.relocate move) (state.step token) := by
  rcases state with ⟨records, phase⟩
  have advanced : (do return ⟨records.map (Record.relocate move),
        ← (phase.relocate move).step (token.relocate move)⟩ : Except Error State) =
      relocateResult move (State.relocate move) (do return ⟨records, ← phase.step token⟩) := by
    rw [phase.step_relocate]
    cases phase.step token <;> rfl
  cases phase with
  | body draft =>
      refine ite_relocate move ?_ advanced
      rw [draft.finish_relocate]
      cases draft.finish with
      | error error => rfl
      | ok record => simp [State.relocate, Phase.relocate, bind, Except.bind, pure, Except.pure]
  | _ => exact advanced

theorem State.run_relocate (state : State) (tokens : List Token) :
    (state.relocate move).run (tokens.map (Token.relocate move)) =
      relocateResult move (State.relocate move) (state.run tokens) := by
  induction tokens generalizing state with
  | nil => rfl
  | cons token rest ih =>
      rw [List.map_cons, run_cons, run_cons, state.step_relocate]
      cases state.step token with
      | error error => rfl
      | ok next => exact ih next

/-- Moved tokens are read as moved records. -/
theorem recordsOf_relocate (tokens : List Token) :
    recordsOf (tokens.map (Token.relocate move)) =
      relocateResult move (List.map (Record.relocate move)) (recordsOf tokens) := by
  simp only [recordsOf, List.getLast?_map]
  cases tokens.getLast? with
  | none => rfl
  | some last =>
      have run := State.initial.run_relocate move tokens
      have initial : State.initial.relocate move = State.initial := rfl
      rw [initial] at run
      simp only [Option.map_some, run]
      cases State.initial.run tokens with
      | error error => rfl
      | ok state =>
          rcases state with ⟨records, phase⟩
          have refused := phase.refuse_relocate move (List.map (Record.relocate move)) last
          cases phase with
          | finished => rfl
          | _ => exact refused

end Spec

/-! ## The check of records -/

theorem fieldNameViolations_relocate (table : String) (seen : List String) (fields : List Field) :
    fieldNameViolations table seen (fields.map (Field.relocate move)) =
      fieldNameViolations table seen fields := by
  induction fields generalizing seen with
  | nil => rfl
  | cons field rest ih =>
      rw [List.map_cons, fieldNameViolations, ih]
      rfl

theorem Record.bufferedViolation?_relocate (record : Record) (name : String) :
    (record.relocate move).bufferedViolation? name = record.bufferedViolation? name := by
  have found : (record.relocate move).fields.find? (fun field => field.name == name) =
      (record.fields.find? fun field => field.name == name).map (Field.relocate move) :=
    List.find?_map
  simp only [bufferedViolation?, found]
  cases record.fields.find? fun field => field.name == name <;> rfl

theorem Record.violations_relocate (record : Record) :
    (record.relocate move).violations = record.violations := by
  have names := fieldNameViolations_relocate move record.name [] record.fields
  have defaults : (record.fields.map (Field.relocate move)).filterMap Field.defaultViolation? =
      record.fields.filterMap Field.defaultViolation? := List.filterMap_map
  have buffered : (record.relocate move).bufferedViolation? = record.bufferedViolation? :=
    funext (record.bufferedViolation?_relocate move)
  simp only [violations, buffered]
  simp only [relocate, names, defaults]
  rfl

theorem tableViolations_relocate (seen : List String) (records : List Record) :
    tableViolations seen (records.map (Record.relocate move)) = tableViolations seen records := by
  induction records generalizing seen with
  | nil => rfl
  | cons record rest ih =>
      rw [List.map_cons, tableViolations, record.violations_relocate, ih]
      rfl

/-- Records pass their check wherever they stand. -/
theorem checkRecords_relocate (records : List Record) :
    checkRecords (records.map (Record.relocate move)) = checkRecords records := by
  rw [checkRecords, checkRecords, tableViolations_relocate]

/-! ## Tables -/

theorem Record.fieldsLines_relocate (record : Record) (fields : List Field) :
    (record.relocate move).fieldsLines (fields.map (Field.relocate move)) =
      record.fieldsLines fields := by
  induction fields with
  | nil => rfl
  | cons field rest ih =>
      have first : (record.relocate move).fieldLines (field.relocate move) =
        record.fieldLines field := rfl
      rw [List.map_cons, fieldsLines, fieldsLines, first, ih]

theorem Record.table_relocate (record : Record) :
    (record.relocate move).table = record.table := by
  have lines := record.fieldsLines_relocate move record.fields
  have fieldsEq : (record.relocate move).fields = record.fields.map (Field.relocate move) := rfl
  rw [table, table, fieldsEq, lines, List.length_map]
  rfl

/-- The tables of records are the same wherever the records stand. -/
theorem tables_relocate (records : List Record) :
    tables (records.map (Record.relocate move)) = tables records := by
  induction records with
  | nil => rfl
  | cons record rest ih => rw [List.map_cons, tables, tables, record.table_relocate, ih]

end

end Fieldmap
