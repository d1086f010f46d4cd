import Fieldmap.Proofs.ErrorPlaces
import Fieldmap.Proofs.Expressible

/-!
# Errors show at the first wrong token

From every phase some tokens lead back between records: what is open is closed, and what
a record still lacks is added. The tokens that the reader has taken therefore always begin
some specification, while the token that it refuses ends every hope of one. So an error is
never found late, and never early.
-/

namespace Fieldmap.Spec

/-! ## Ways out of a phase -/

/-- Tokens lead from a phase back between records. None of them is empty. -/
def Phase.Completes (phase : Phase) : Prop :=
  ∃ tokens, (∀ token ∈ tokens, token.text ≠ "") ∧
    ∀ records, ∃ further, State.run ⟨records, phase⟩ tokens = .ok ⟨further, .records⟩

namespace Phase.Completes

variable {phase next : Phase}

/-- Completion is carried backwards along a stretch of tokens. -/
theorem of_reads {tokens : List Token} (filled : ∀ token ∈ tokens, token.text ≠ "")
    (reads : phase.Reads tokens next) (completes : next.Completes) : phase.Completes := by
  rcases completes with ⟨rest, restFilled, runs⟩
  refine ⟨tokens ++ rest, List.forall_mem_append.mpr ⟨filled, restFilled⟩, ?_⟩
  intro records
  rcases runs records with ⟨further, run⟩
  refine ⟨further, ?_⟩
  rw [State.run_append, reads records]
  exact run

/-- Completion is carried backwards along one word. -/
theorem of_step {word : String} (outside : ∀ draft, phase ≠ .body draft) (filled : word ≠ "")
    (step : phase.step (Token.bare word) = .ok next) (completes : next.Completes) :
    phase.Completes := by
  have reads : phase.Reads [Token.bare word] next := .cons step outside (.nil next)
  apply of_reads _ reads completes
  simpa [Token.bare] using filled

theorem of_identifier {word : String} (outside : ∀ draft, phase ≠ .body draft)
    (identifier : Text.isIdentifier word.toList)
    (step : (Token.bare word).is .identifier → phase.step (Token.bare word) = .ok next)
    (completes : next.Completes) : phase.Completes := by
  apply of_step outside _ (step (Token.is_bare_identifier identifier)) completes
  rintro rfl
  cases identifier

theorem of_mark (mark : Mark) (outside : ∀ draft, phase ≠ .body draft)
    (step : (Token.bare mark.text).is (.mark mark) →
      phase.step (Token.bare mark.text) = .ok next)
    (completes : next.Completes) : phase.Completes := by
  apply of_step outside _ (step (Token.is_bare_mark mark)) completes
  cases mark <;> decide

end Phase.Completes

/-! ## Bodies -/

theorem Draft.exists_finish {draft : Draft} (structured : draft.has .struct)
    (mapped : draft.has .fieldmap) : ∃ record, draft.finish = .ok record := by
  rcases Option.isSome_iff_exists.mp structured with ⟨structName, structSlot⟩
  rcases Option.isSome_iff_exists.mp mapped with ⟨fields, fieldsSlot⟩
  simp only [finish, structSlot, fieldsSlot]
  exact ⟨_, rfl⟩

/-- A brace closes a record that lacks nothing. -/
theorem completes_body_of_full {draft : Draft} (structured : draft.has .struct)
    (mapped : draft.has .fieldmap) : (Phase.body draft).Completes := by
  rcases Draft.exists_finish structured mapped with ⟨record, finished⟩
  have closes := Token.is_bare_mark .rightBrace
  refine ⟨[Token.bare Mark.rightBrace.text], by decide, ?_⟩
  intro records
  refine ⟨records ++ [record], ?_⟩
  simp only [State.run, State.step, closes, ↓reduceIte, finished]
  rfl

/-- A missing item is added before the brace. -/
theorem completes_body (draft : Draft) : (Phase.body draft).Completes := by
  have withStruct (draft : Draft) (structured : draft.has .struct) :
      (Phase.body draft).Completes := by
    by_cases mapped : draft.has .fieldmap
    · exact completes_body_of_full structured mapped
    · have item := DerivesItem.fieldmap (Token.isWord_bare Item.fieldmap.keyword)
        (Token.is_bare_mark .leftParen) .nil (Token.is_bare_mark .rightParen)
      have reads := item.reads (Bool.eq_false_iff.mpr mapped)
      have full : (Phase.body (draft.add (.fieldmap []))).Completes :=
        completes_body_of_full structured rfl
      exact .of_reads (by decide) reads full
  by_cases structured : draft.has .struct
  · exact withStruct draft structured
  · have item := DerivesItem.struct (Token.isWord_bare Item.struct.keyword)
      (.bare (Token.is_bare_identifier Item.struct.isIdentifier_keyword))
      (Token.is_bare_mark .semicolon)
    have reads := item.reads (Bool.eq_false_iff.mpr structured)
    exact .of_reads (by decide) reads (withStruct _ rfl)

/-! ## Items -/

theorem completes_itemEnd (draft : Draft) : (Phase.itemEnd draft).Completes :=
  .of_mark .semicolon (by simp) (fun ends => by simp [Phase.step, ends]) (completes_body draft)

theorem completes_buffered (draft : Draft) (names : NameSet) :
    (Phase.buffered draft names).Completes :=
  .of_mark .rightParen (by simp) (fun closes => by simp [Phase.step, closes])
    (completes_itemEnd { draft with buffered := some names })

/-- Behind complete entries the fieldmap may end. -/
theorem BeforeEntry.completes {draft : Draft} {fields : List Field} {phase : Phase}
    (before : BeforeEntry draft fields phase) : phase.Completes :=
  .of_mark .rightParen before.ne_body before.step_rightParen (completes_body _)

/-- An entry goes on up to its end, as one of a string without a default. -/
theorem completes_entry (draft : Draft) (fields : List Field) (part : EntryPhase) :
    (Phase.entry draft fields part).Completes := by
  have behind (all : List Field) : (Phase.fieldmapNext draft all).Completes :=
    BeforeEntry.next.completes
  have close (field : Field) : (Phase.entry draft fields (.close field)).Completes :=
    .of_mark .rightParen (by simp) (fun closes => by simp [Phase.step, EntryPhase.step, closes])
      (behind (fields ++ [field]))
  have default (name : Token) (type : FieldType) :
      (Phase.entry draft fields (.default name type)).Completes := by
    have absent := DerivesDefault.absent (Token.isWord_bare absentDefault)
    exact .of_identifier (by simp) isIdentifier_absentDefault
      (fun _ => absent.step_eq draft fields name type) (close _)
  have typeEnd (name : Token) (type : FieldType) :
      (Phase.entry draft fields (.typeEnd name type)).Completes :=
    .of_mark .comma (by simp) (fun parted => by simp [Phase.step, EntryPhase.step, parted])
      (default name type)
  have type (name : Token) : (Phase.entry draft fields (.type name)).Completes := by
    apply Phase.Completes.of_identifier (by simp) FieldType.string.isIdentifier_name _
      (typeEnd name .string)
    intro identifier
    have text : (Token.bare FieldType.string.name).text = FieldType.string.name := rfl
    simp [Phase.step, EntryPhase.step, identifier, text]
  have nameEnd (name : Token) : (Phase.entry draft fields (.nameEnd name)).Completes :=
    .of_mark .comma (by simp) (fun parted => by simp [Phase.step, EntryPhase.step, parted])
      (type name)
  cases part with
  | name =>
      exact .of_identifier (by simp) isIdentifier_absentDefault
        (fun named => by simp [Phase.step, EntryPhase.step, named])
        (nameEnd (Token.bare absentDefault))
  | nameEnd name => exact nameEnd name
  | type name => exact type name
  | typeEnd name fieldType => exact typeEnd name fieldType
  | default name fieldType => exact default name fieldType
  | close field => exact close field

/-- Reading can be brought back between records from wherever it is before its end. -/
theorem Phase.completes (phase : Phase) (unfinished : phase ≠ .finished) : phase.Completes := by
  have bodyOpen (draft : Draft) : (Phase.bodyOpen draft).Completes :=
    .of_mark .leftBrace (by simp) (fun opens => by simp [Phase.step, opens])
      (completes_body draft)
  have fieldmap (draft : Draft) (fields : List Field) :
      (Phase.fieldmap draft fields).Completes :=
    BeforeEntry.first.completes
  cases phase with
  | records => exact ⟨[], List.forall_mem_nil _, fun records => ⟨records, rfl⟩⟩
  | recordName position =>
      exact .of_identifier (by simp) isIdentifier_recordKeyword
        (fun named => by simp [Phase.step, named])
        (bodyOpen (.empty position (Token.bare "record")))
  | bodyOpen draft => exact bodyOpen draft
  | body draft => exact completes_body draft
  | header draft =>
      have denotes := denotes_bare_quote ""
      exact .of_step (by simp) (by decide) (denotes.step_header draft) (completes_itemEnd _)
  | struct draft =>
      exact .of_identifier (by simp) isIdentifier_recordKeyword
        (fun named => (DerivesStructName.bare named).step_eq draft) (completes_itemEnd _)
  | itemEnd draft => exact completes_itemEnd draft
  | bufferedOpen draft =>
      exact .of_mark .leftParen (by simp) (fun opens => by simp [Phase.step, opens])
        (completes_buffered draft .empty)
  | buffered draft names => exact completes_buffered draft names
  | bufferedNext draft names =>
      exact .of_mark .comma (by simp) (fun parted => by simp [Phase.step, parted])
        (completes_buffered draft names)
  | fieldmapOpen draft =>
      exact .of_mark .leftParen (by simp) (fun opens => by simp [Phase.step, opens])
        (fieldmap draft [])
  | fieldmap draft fields => exact fieldmap draft fields
  | entry draft fields part => exact completes_entry draft fields part
  | fieldmapNext draft fields => exact BeforeEntry.next.completes
  | finished => exact absurd rfl unfinished

/-! ## Viable tokens and dead ends -/

/-- Some specification begins with these tokens. -/
def Viable (front : List Token) : Prop :=
  ∃ rest last records, (∀ token ∈ front ++ rest, token.text ≠ "") ∧ last.text = "" ∧
    recordsOf (front ++ rest ++ [last]) = .ok records

/-- Nothing is read behind these tokens, whatever follows. -/
def DeadEnd (front : List Token) : Prop :=
  ∀ rest records, recordsOf (front ++ rest) ≠ .ok records

/-- The end of the specification is only reached at an empty token. -/
theorem State.unfinished_of_run {tokens : List Token} {state : State}
    (filled : ∀ token ∈ tokens, token.text ≠ "") (run : State.initial.run tokens = .ok state) :
    state.phase ≠ .finished := by
  intro finished
  have accounts := State.accounts_initial.run run
  rw [List.nil_append] at accounts
  cases accounts with
  | @intro records phase before inside _ phaseAccounts =>
      change phase = .finished at finished
      subst finished
      cases phaseAccounts with
      | @finished last rest ends =>
          have empty := Token.is_endOfText_iff.mp ends
          exact filled last (by simp) empty

/-- Tokens that are taken can be completed. -/
theorem viable_of_run {front : List Token} {state : State}
    (filled : ∀ token ∈ front, token.text ≠ "")
    (taken : State.initial.run front = .ok state) : Viable front := by
  rcases state.phase.completes (State.unfinished_of_run filled taken) with
    ⟨rest, restFilled, completes⟩
  rcases completes state.records with ⟨records, completed⟩
  refine ⟨rest, ⟨"", .nowhere⟩, records, List.forall_mem_append.mpr ⟨filled, restFilled⟩, rfl, ?_⟩
  rw [recordsOf_eq_ok_iff_run (by simp), List.append_assoc, State.run_append, taken]
  change state.run (rest ++ [⟨"", .nowhere⟩]) = _
  rw [State.run_append, completed]
  rfl

/-- Tokens that are refused cannot be saved. -/
theorem deadEnd_of_run {front : List Token} {error : Error}
    (refused : State.initial.run front = .error error) : DeadEnd front := by
  intro rest records read
  have filled : front ++ rest ≠ [] := by
    intro empty
    rw [(List.append_eq_nil_iff.mp empty).1] at refused
    cases refused
  rw [recordsOf_eq_ok_iff_run filled, State.run_append, refused] at read
  cases read

/-! ## The first wrong token -/

/-- An empty token is refused or ends the specification. -/
theorem Phase.eq_finished_of_step {phase next : Phase} {token : Token}
    (ends : token.is .endOfText) (step : phase.step token = .ok next) : next = .finished := by
  have other (tokenClass : TokenClass) (different : .endOfText ≠ tokenClass) :
      token.is tokenClass = false :=
    Token.is_eq_false ends tokenClass different
  cases phase with
  | records =>
      simp only [Phase.step, ends, ↓reduceIte, Except.ok.injEq] at step
      exact step.symm
  | body draft =>
      have text := Token.is_endOfText_iff.mp ends
      simp [Phase.step, Item.all, Token.isWord, text, Item.keyword, Phase.refuse] at step
  | entry draft fields part =>
      cases part <;> simp [Phase.step, EntryPhase.step, other, Phase.refuse] at step
  | finished =>
      cases step
      rfl
  | _ => simp [Phase.step, entryOrEnd, other, Phase.refuse] at step

/-- Behind an empty token that is taken the specification has ended. -/
theorem State.finished_of_run {front : List Token} {last : Token} {state reached : State}
    (ends : last.is .endOfText) (run : state.run (front ++ [last]) = .ok reached) :
    reached.phase = .finished := by
  rw [State.run_append] at run
  rcases exists_of_bind_eq_ok run with ⟨middle, _, run⟩
  rcases exists_of_bind_eq_ok run with ⟨next, step, run⟩
  cases run
  rcases State.step_eq_ok step with ⟨_, _, _, closes, _⟩ | ⟨phase, stepped, rfl⟩
  · simp [Token.is_eq_false ends (.mark .rightBrace) (by decide)] at closes
  · exact Phase.eq_finished_of_step ends stepped

/-- Behind an empty token only a refusal on the way is left to fail for. -/
theorem run_eq_error_of_recordsOf {body : List Token} {last : Token} {error : Error}
    (ends : last.is .endOfText) (refused : recordsOf (body ++ [last]) = .error error) :
    State.initial.run (body ++ [last]) = .error error := by
  rcases recordsOf_eq_error refused with failed | ⟨_, state, _, run, unfinished, _⟩
  · exact failed
  · exact absurd (State.finished_of_run ends run) unfinished

/-- Tokens end in the body of a record, behind some of its items. -/
inductive EndsInRecord (name : Token) (items : List ItemContent) : List Token → Prop where
  | intro {before body : List Token} {records : List Record} {keyword opening : Token} :
      Sequence DerivesRecord before records → keyword.isWord "record" → name.is .identifier →
      opening.is (.mark .leftBrace) → Sequence DerivesItem body items →
      EndsInRecord name items (before ++ ([keyword, name, opening] ++ body))

/-- The item that a record is said to lack. -/
def Fault.missing? : Fault → Option Item
  | missingStruct _ => some .struct
  | missingFieldmap _ => some .fieldmap
  | _ => none

/-- What the error at a wrong token shows: the token itself, or the name of the record
that it closes before one item stands in it. -/
def Error.ShowsAt (error : Error) (front : List Token) (culprit : Token) : Prop :=
  match error.fault.missing? with
  | none => error.token = culprit
  | some item => culprit.is (.mark .rightBrace) ∧ ∃ items,
      EndsInRecord error.token items front ∧ item ∉ items.map ItemContent.item

theorem Phase.Refuses.missing?_eq {phase : Phase} {token : Token} {fault : Fault}
    (refuses : phase.Refuses token fault) : fault.missing? = none := by
  cases refuses with
  | unusable => cases phase <;> rfl
  | duplicate | literal | unknownType => rfl

theorem Draft.Lacks.exists_missing {draft : Draft} {fault : Fault} (lacks : draft.Lacks fault) :
    ∃ item, fault.missing? = some item ∧ draft.has item = false := by
  cases lacks with
  | struct free => exact ⟨.struct, rfl, by simp [has, free]⟩
  | fieldmap free => exact ⟨.fieldmap, rfl, by simp [has, free]⟩

/-- A token that is refused behind tokens that account for a state is what the error
shows. -/
theorem State.Accounts.showsAt {state : State} {front : List Token} {token : Token}
    {error : Error} (accounts : state.Accounts front) (step : state.step token = .error error) :
    error.ShowsAt front token := by
  unfold Error.ShowsAt
  rcases State.step_eq_error step with
    ⟨draft, inBody, closes, position, lacks⟩ | ⟨position, refuses⟩
  · rcases lacks.exists_missing with ⟨item, missing, free⟩
    rw [missing, lacks.token_eq position]
    cases accounts with
    | @intro records phase before inside derived phaseAccounts =>
        change phase = .body draft at inBody
        subst inBody
        cases phaseAccounts with
        | body draftAccounts =>
            cases draftAccounts with
            | intro word named opens sequence _ holds nameEq _ =>
                rw [nameEq]
                exact ⟨closes, _, .intro derived word named opens sequence,
                  (holds.has_eq_false_iff item).mp free⟩
  · rw [refuses.missing?_eq]
    exact refuses.token_eq position

/-- An error is over the first token that no specification has behind those in front of
it. What is in front of that token begins some specification, so nothing earlier is to
blame, and with that token nothing begins one. -/
theorem recordsOf_error_earliest {body : List Token} {last : Token} {error : Error}
    (filled : ∀ token ∈ body, token.text ≠ "") (ends : last.text = "")
    (refused : recordsOf (body ++ [last]) = .error error) :
    ∃ front culprit behind, body ++ [last] = front ++ culprit :: behind ∧
      Viable front ∧ DeadEnd (front ++ [culprit]) ∧ error.ShowsAt front culprit := by
  have failed := run_eq_error_of_recordsOf (Token.is_endOfText_iff.mpr ends) refused
  rcases State.run_eq_error failed with ⟨front, culprit, behind, reached, whole, taken, step⟩
  have inBody : ∀ token ∈ front, token ∈ body := by
    have fronts := congrArg List.dropLast whole
    rw [List.dropLast_concat, List.dropLast_append_cons] at fronts
    intro token member
    rw [fronts]
    exact List.mem_append_left _ member
  refine ⟨front, culprit, behind, whole, ?_, ?_, ?_⟩
  · exact viable_of_run (fun token member => filled token (inBody token member)) taken
  · apply deadEnd_of_run
    rw [State.run_append, taken]
    change reached.run [culprit] = .error error
    rw [State.run_cons, step]
    rfl
  · have accounts := State.accounts_initial.run taken
    exact accounts.showsAt step

/-- The tokens of a record that has a structure but no fields. -/
def structOnlyTokens : List Token := [
  ⟨"record", ⟨1, 1⟩⟩, ⟨"a", ⟨1, 8⟩⟩, ⟨"\x7b", ⟨1, 10⟩⟩,
  ⟨"struct", ⟨1, 12⟩⟩, ⟨"s", ⟨1, 19⟩⟩, ⟨";", ⟨1, 20⟩⟩, ⟨"\x7d", ⟨1, 22⟩⟩]

theorem recordsOf_structOnlyTokens_earliest :
    (∀ token ∈ structOnlyTokens, token.text ≠ "") ∧
    recordsOf (structOnlyTokens ++ [⟨"", ⟨1, 23⟩⟩]) =
      .error ⟨⟨1, 8⟩, .missingFieldmap "a"⟩ ∧
    ∃ front culprit behind,
      structOnlyTokens ++ [⟨"", ⟨1, 23⟩⟩] = front ++ culprit :: behind ∧
      Viable front ∧ DeadEnd (front ++ [culprit]) ∧
      Error.ShowsAt ⟨⟨1, 8⟩, .missingFieldmap "a"⟩ front culprit :=
  ⟨by decide, rfl, recordsOf_error_earliest (by decide) rfl rfl⟩

end Fieldmap.Spec
