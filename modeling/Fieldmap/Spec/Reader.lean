import Fieldmap.Record.Basic
import Fieldmap.Spec.Error
import Fieldmap.Token.Basic

/-!
# Reading records

A specification is a sequence of records, read token by token. What may come next
depends on a phase, which also holds the parts of the record read so far. A token
either leads to the next phase or is refused on the spot, so an error always stands
at the first token that no specification could have there.

The items of a record may come in any order, each at most once. Reading ends at the
first empty token.
-/

namespace Fieldmap.Spec

open Text (Position Literal.read)

/-- The kinds of items in a record. -/
inductive Item where
  | header
  | struct
  | buffered
  | fieldmap
  deriving DecidableEq, Repr

namespace Item

/-- All kinds of items. -/
def all : List Item := [header, struct, buffered, fieldmap]

/-- The keyword that opens an item. -/
def keyword : Item → String
  | header => "header"
  | struct => "struct"
  | buffered => "buffered"
  | fieldmap => "fieldmap"

end Item

/-- The spelling of a default that is absent. -/
def absentDefault : String := "None"

/-- A record of which some items have been read. -/
structure Draft where
  /-- Where the record begins. -/
  position : Position
  /-- The token that names the record. -/
  name : Token
  header : Option String
  structName : Option String
  buffered : Option NameSet
  fields : Option (List Field)
  deriving DecidableEq

namespace Draft

/-- A record of which only the name has been read. -/
def empty (position : Position) (name : Token) : Draft :=
  ⟨position, name, none, none, none, none⟩

/-- Whether an item of one kind has been read. -/
def has (draft : Draft) : Item → Bool
  | .header => draft.header.isSome
  | .struct => draft.structName.isSome
  | .buffered => draft.buffered.isSome
  | .fieldmap => draft.fields.isSome

/-- The record that a draft has become when its body ends. A structure and fields
are required; the fault is shown at the record's name. -/
def finish (draft : Draft) : Except Error Record :=
  match draft.structName, draft.fields with
  | none, _ => .error ⟨draft.name.position, .missingStruct draft.name.text⟩
  | some _, none => .error ⟨draft.name.position, .missingFieldmap draft.name.text⟩
  | some structName, some fields =>
      .ok ⟨draft.name.text, draft.position, draft.header, structName, fields,
        draft.buffered.getD .empty⟩

end Draft

/-- How far one entry of a fieldmap has been read, behind its opening parenthesis. -/
inductive EntryPhase where
  | name
  | nameEnd (name : Token)
  | type (name : Token)
  | typeEnd (name : Token) (type : FieldType)
  | default (name : Token) (type : FieldType)
  | close (field : Field)
  deriving DecidableEq, Repr

/-- How far a specification has been read. -/
inductive Phase where
  /-- Between records. -/
  | records
  | recordName (position : Position)
  | bodyOpen (draft : Draft)
  /-- Between the items of a record. -/
  | body (draft : Draft)
  | header (draft : Draft)
  | struct (draft : Draft)
  | itemEnd (draft : Draft)
  | bufferedOpen (draft : Draft)
  /-- Before a buffered name or the end of the list. -/
  | buffered (draft : Draft) (names : NameSet)
  | bufferedNext (draft : Draft) (names : NameSet)
  | fieldmapOpen (draft : Draft)
  /-- Before an entry or the end of the fieldmap. -/
  | fieldmap (draft : Draft) (fields : List Field)
  | entry (draft : Draft) (fields : List Field) (phase : EntryPhase)
  /-- Behind an entry, where a comma may stand. -/
  | fieldmapNext (draft : Draft) (fields : List Field)
  /-- Behind the end of the specification. -/
  | finished
  deriving DecidableEq

/-- What an entry must continue with. -/
def EntryPhase.expectation : EntryPhase → Expectation
  | name => .fieldName
  | nameEnd _ => .mark .comma
  | type _ => .fieldType
  | typeEnd _ _ => .mark .comma
  | default _ _ => .defaultValue
  | close _ => .mark .rightParen

/-- Why a phase refuses a token that it cannot use. -/
def Phase.refusal (found : String) : Phase → Fault
  | records => .unexpected found
  | recordName _ => .expected .identifier found
  | bodyOpen _ => .expected (.mark .leftBrace) found
  | body _ => .unexpected found
  | header _ => .expected .string found
  | struct _ => .expected .structName found
  | itemEnd _ => .expected (.mark .semicolon) found
  | bufferedOpen _ => .expected (.mark .leftParen) found
  | buffered _ _ => .expected .fieldName found
  | bufferedNext _ _ => .expected (.mark .rightParen) found
  | fieldmapOpen _ => .expected (.mark .leftParen) found
  | fieldmap _ _ => .expected (.mark .leftParen) found
  | entry _ _ phase => .expected phase.expectation found
  | fieldmapNext _ _ => .expected (.mark .leftParen) found
  | finished => .unexpected found

/-- The refusal of a token. -/
def Phase.refuse {α : Type} (phase : Phase) (token : Token) : Except Error α :=
  .error ⟨token.position, phase.refusal token.text⟩

/-- The text that a quoted token denotes. -/
def literal (token : Token) : Except Error String :=
  match Literal.read token.text with
  | .ok text => .ok text
  | .error error => .error ⟨token.position, .invalidLiteral token.text error⟩

/-- The phase behind the keyword of an item. A second item of one kind is refused. -/
def Draft.open (draft : Draft) (token : Token) (item : Item) : Except Error Phase :=
  if draft.has item then .error ⟨token.position, .duplicateItem token.text⟩
  else
    .ok <| match item with
      | .header => .header draft
      | .struct => .struct draft
      | .buffered => .bufferedOpen draft
      | .fieldmap => .fieldmapOpen draft

/-- The phase behind one more token of an entry. A bare default is copied as it
stands, a quoted one is read as a literal. -/
def EntryPhase.step (draft : Draft) (fields : List Field) (phase : EntryPhase)
    (token : Token) : Except Error Phase :=
  let refuse := (Phase.entry draft fields phase).refuse token
  let goOn (next : EntryPhase) : Except Error Phase := .ok (.entry draft fields next)
  match phase with
  | .name => if token.is .identifier then goOn (.nameEnd token) else refuse
  | .nameEnd nameToken => if token.is (.mark .comma) then goOn (.type nameToken) else refuse
  | .type nameToken =>
      if token.is .identifier then
        match FieldType.ofName? token.text with
        | some fieldType => goOn (.typeEnd nameToken fieldType)
        | none => .error ⟨token.position, .unknownType token.text⟩
      else refuse
  | .typeEnd nameToken fieldType =>
      if token.is (.mark .comma) then goOn (.default nameToken fieldType) else refuse
  | .default nameToken fieldType =>
      let field (value : Option String) : Field :=
        ⟨nameToken.text, nameToken.position, fieldType, value⟩
      if token.is .identifier || token.is .number then
        goOn (.close (field (if token.isWord absentDefault then none else some token.text)))
      else if token.is .quoted then do
        goOn (.close (field (some (← literal token))))
      else refuse
  | .close field =>
      if token.is (.mark .rightParen) then .ok (.fieldmapNext draft (fields ++ [field]))
      else refuse

/-- The phase behind one more token before or behind an entry. -/
def entryOrEnd (draft : Draft) (fields : List Field) (phase : Phase) (token : Token) :
    Except Error Phase :=
  if token.is (.mark .rightParen) then .ok (.body { draft with fields := some fields })
  else if token.is (.mark .leftParen) then .ok (.entry draft fields .name)
  else phase.refuse token

/-- The records read so far, and the phase. -/
structure State where
  records : List Record
  phase : Phase
  deriving DecidableEq

/-- Nothing has been read. -/
def State.initial : State := ⟨[], .records⟩

/-- The phase behind one more token inside a record. -/
def Phase.step (phase : Phase) (token : Token) : Except Error Phase :=
  match phase with
  | .records =>
      if token.is .endOfText then .ok .finished
      else if token.isWord "record" then .ok (.recordName token.position)
      else phase.refuse token
  | .recordName position =>
      if token.is .identifier then .ok (.bodyOpen (.empty position token))
      else phase.refuse token
  | .bodyOpen draft =>
      if token.is (.mark .leftBrace) then .ok (.body draft) else phase.refuse token
  | .body draft =>
      match Item.all.find? fun item => token.isWord item.keyword with
      | some item => draft.open token item
      | none => phase.refuse token
  | .header draft =>
      if token.is .quoted then do
        return .itemEnd { draft with header := some (← literal token) }
      else phase.refuse token
  | .struct draft =>
      if token.is .quoted then do
        return .itemEnd { draft with structName := some (← literal token) }
      else if token.is .identifier then
        .ok (.itemEnd { draft with structName := some token.text })
      else phase.refuse token
  | .itemEnd draft =>
      if token.is (.mark .semicolon) then .ok (.body draft) else phase.refuse token
  | .bufferedOpen draft =>
      if token.is (.mark .leftParen) then .ok (.buffered draft .empty) else phase.refuse token
  | .buffered draft names =>
      if token.is (.mark .rightParen) then .ok (.itemEnd { draft with buffered := some names })
      else if token.is .identifier then .ok (.bufferedNext draft (names.insert token.text))
      else phase.refuse token
  | .bufferedNext draft names =>
      if token.is (.mark .comma) then .ok (.buffered draft names)
      else if token.is (.mark .rightParen) then
        .ok (.itemEnd { draft with buffered := some names })
      else phase.refuse token
  | .fieldmapOpen draft =>
      if token.is (.mark .leftParen) then .ok (.fieldmap draft []) else phase.refuse token
  | .fieldmap draft fields => entryOrEnd draft fields phase token
  | .entry draft fields part => part.step draft fields token
  | .fieldmapNext draft fields =>
      if token.is (.mark .comma) then .ok (.fieldmap draft fields)
      else entryOrEnd draft fields phase token
  | .finished => .ok .finished

/-- The state behind one more token. The closing brace of a body completes a record. -/
def State.step (state : State) (token : Token) : Except Error State :=
  let advance : Except Error State := do return ⟨state.records, ← state.phase.step token⟩
  match state.phase with
  | .body draft =>
      if token.is (.mark .rightBrace) then do
        return ⟨state.records ++ [← draft.finish], .records⟩
      else advance
  | _ => advance

/-- The state behind a list of tokens. -/
def State.run (state : State) : List Token → Except Error State
  | [] => .ok state
  | token :: rest => do
      (← state.step token).run rest

@[simp] theorem State.run_nil (state : State) : state.run [] = .ok state := rfl

theorem State.run_cons (state : State) (token : Token) (rest : List Token) :
    state.run (token :: rest) = state.step token >>= fun next => next.run rest := rfl

/-- Reading goes on where it stopped. -/
theorem State.run_append (state : State) (first second : List Token) :
    state.run (first ++ second) = state.run first >>= fun next => next.run second := by
  induction first generalizing state with
  | nil => rfl
  | cons token rest ih =>
      rw [List.cons_append, run_cons, run_cons]
      cases step : state.step token with
      | error error => rfl
      | ok next => exact ih next

/-- The records of a list of tokens. Where the tokens give out before an empty one,
the last token is refused once more in the phase that is then reached. -/
def recordsOf (tokens : List Token) : Except Error (List Record) :=
  match tokens.getLast? with
  | none => .ok []
  | some last => do
      let state ← State.initial.run tokens
      match state.phase with
      | .finished => .ok state.records
      | phase => phase.refuse last

end Fieldmap.Spec
