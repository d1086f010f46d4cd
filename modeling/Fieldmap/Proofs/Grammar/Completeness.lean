import Fieldmap.Proofs.Grammar.Draft
import Fieldmap.Proofs.TokenClass

/-!
# The reader takes every specification

What the grammar derives is read, and the records read are those derived. Each
nonterminal takes the reader from the phase in front of it to the phase behind it,
so a derivation is followed from left to right without looking ahead.
-/

namespace Fieldmap.Spec

/-- One phase is reached from another over some tokens, within one record. -/
def Phase.Reads (phase : Phase) (tokens : List Token) (next : Phase) : Prop :=
  ∀ records, State.run ⟨records, phase⟩ tokens = .ok ⟨records, next⟩

namespace Phase

theorem Reads.nil (phase : Phase) : phase.Reads [] phase := fun _ => rfl

theorem Reads.append {phase middle next : Phase} {left right : List Token}
    (first : phase.Reads left middle) (second : middle.Reads right next) :
    phase.Reads (left ++ right) next := by
  intro records
  rw [State.run_append, first records]
  exact second records

/-- Outside of bodies the state follows the phase. -/
theorem Reads.cons {phase middle next : Phase} {token : Token} {rest : List Token}
    (step : phase.step token = .ok middle) (outside : ∀ draft, phase ≠ .body draft)
    (further : middle.Reads rest next) : phase.Reads (token :: rest) next := by
  intro records
  have stepped : State.step ⟨records, phase⟩ token = .ok ⟨records, middle⟩ := by
    cases phase with
    | body draft => exact absurd rfl (outside draft)
    | _ =>
        simp only [State.step, step]
        rfl
  rw [State.run_cons, stepped]
  exact further records

/-- The keyword of an item whose kind is new opens it. -/
theorem Reads.cons_keyword {draft : Draft} {keyword : Token} {item : Item} {rest : List Token}
    {opened next : Phase} (word : keyword.isWord item.keyword)
    (step : draft.open keyword item = .ok opened) (further : opened.Reads rest next) :
    (Phase.body draft).Reads (keyword :: rest) next := by
  intro records
  have identifier := Token.is_identifier_of_isWord item.isIdentifier_keyword word
  have notBrace := Token.is_eq_false identifier (.mark .rightBrace) (by decide)
  have stepped : State.step ⟨records, .body draft⟩ keyword = .ok ⟨records, opened⟩ := by
    simp only [State.step, notBrace, Bool.false_eq_true, ↓reduceIte, Phase.step,
      Item.find?_keyword word, step]
    rfl
  rw [State.run_cons, stepped]
  exact further records

end Phase

/-! ## Literals and defaults -/

theorem Denotes.literal_eq {token : Token} {text : String} (denotes : Denotes token text) :
    literal token = .ok text := by
  simp only [literal, denotes.2]

/-- The text of a header leads behind it. -/
theorem Denotes.step_header {token : Token} {text : String} (denotes : Denotes token text)
    (draft : Draft) :
    (Phase.header draft).step token = .ok (.itemEnd (draft.add (.header text))) := by
  simp only [Phase.step, denotes.1, ↓reduceIte, denotes.literal_eq]
  rfl

/-- Either spelling of a structure's name leads behind it. -/
theorem DerivesStructName.step_eq {token : Token} {name : String}
    (derived : DerivesStructName token name) (draft : Draft) :
    (Phase.struct draft).step token = .ok (.itemEnd { draft with structName := some name }) := by
  cases derived with
  | quoted denotes =>
      simp only [Phase.step, denotes.1, ↓reduceIte, denotes.literal_eq]
      rfl
  | bare identifier =>
      have notQuoted := Token.is_eq_false identifier .quoted (by decide)
      simp only [Phase.step, notQuoted, identifier, Bool.false_eq_true, ↓reduceIte]

/-- Every default completes its field. -/
theorem DerivesDefault.step_eq {value : Token} {default : Option String}
    (derived : DerivesDefault value default) (draft : Draft) (fields : List Field)
    (name : Token) (type : FieldType) :
    (Phase.entry draft fields (.default name type)).step value =
      .ok (.entry draft fields (.close ⟨name.text, name.position, type, default⟩)) := by
  cases derived with
  | absent word =>
      have identifier := Token.is_identifier_of_isWord isIdentifier_absentDefault word
      simp [Phase.step, EntryPhase.step, identifier, word]
  | identifier identifier notAbsent =>
      simp [Phase.step, EntryPhase.step, identifier, notAbsent]
  | number number =>
      have notIdentifier := Token.is_eq_false number .identifier (by decide)
      have notAbsent : value.isWord absentDefault = false := by
        rw [Bool.eq_false_iff]
        intro word
        have identifier := Token.is_identifier_of_isWord isIdentifier_absentDefault word
        rw [notIdentifier] at identifier
        cases identifier
      simp [Phase.step, EntryPhase.step, number, notAbsent]
  | quoted denotes =>
      have notIdentifier := Token.is_eq_false denotes.1 .identifier (by decide)
      have notNumber := Token.is_eq_false denotes.1 .number (by decide)
      simp [Phase.step, EntryPhase.step, notIdentifier, notNumber, denotes.1, denotes.literal_eq]
      rfl

/-! ## Entries -/

/-- The phases in which the next entry, or the end of the fieldmap, may stand. -/
inductive BeforeEntry (draft : Draft) (fields : List Field) : Phase → Prop where
  | first : BeforeEntry draft fields (.fieldmap draft fields)
  | next : BeforeEntry draft fields (.fieldmapNext draft fields)

namespace BeforeEntry

variable {draft : Draft} {fields : List Field} {phase : Phase}

theorem ne_body (before : BeforeEntry draft fields phase) (other : Draft) :
    phase ≠ .body other := by
  cases before <;> nofun

theorem step_leftParen (before : BeforeEntry draft fields phase) {token : Token}
    (opening : token.is (.mark .leftParen)) :
    phase.step token = .ok (.entry draft fields .name) := by
  have notComma := Token.is_eq_false opening (.mark .comma) (by decide)
  have notClosing := Token.is_eq_false opening (.mark .rightParen) (by decide)
  cases before <;> simp [Phase.step, entryOrEnd, notComma, notClosing, opening]

theorem step_rightParen (before : BeforeEntry draft fields phase) {token : Token}
    (closing : token.is (.mark .rightParen)) :
    phase.step token = .ok (.body { draft with fields := some fields }) := by
  have notComma := Token.is_eq_false closing (.mark .comma) (by decide)
  cases before <;> simp [Phase.step, entryOrEnd, notComma, closing]

end BeforeEntry

/-- An entry up to its default, which is read next. -/
theorem BeforeEntry.reads_default {draft : Draft} {fields : List Field} {phase : Phase}
    (before : BeforeEntry draft fields phase)
    {opening name firstComma typeName secondComma : Token} {type : FieldType}
    (opens : opening.is (.mark .leftParen)) (named : name.is .identifier)
    (parted : firstComma.is (.mark .comma)) (typed : typeName.isWord type.name)
    (partedAgain : secondComma.is (.mark .comma)) :
    phase.Reads [opening, name, firstComma, typeName, secondComma]
      (.entry draft fields (.default name type)) := by
  have typeIdentifier := Token.is_identifier_of_isWord type.isIdentifier_name typed
  rw [Token.isWord_iff] at typed
  have nameStep : (Phase.entry draft fields .name).step name =
      .ok (.entry draft fields (.nameEnd name)) := by
    simp [Phase.step, EntryPhase.step, named]
  have firstStep : (Phase.entry draft fields (.nameEnd name)).step firstComma =
      .ok (.entry draft fields (.type name)) := by
    simp [Phase.step, EntryPhase.step, parted]
  have typeStep : (Phase.entry draft fields (.type name)).step typeName =
      .ok (.entry draft fields (.typeEnd name type)) := by
    simp [Phase.step, EntryPhase.step, typeIdentifier, typed]
  have secondStep : (Phase.entry draft fields (.typeEnd name type)).step secondComma =
      .ok (.entry draft fields (.default name type)) := by
    simp [Phase.step, EntryPhase.step, partedAgain]
  apply Phase.Reads.cons (before.step_leftParen opens) before.ne_body
  apply Phase.Reads.cons nameStep (by simp)
  apply Phase.Reads.cons firstStep (by simp)
  apply Phase.Reads.cons typeStep (by simp)
  exact .cons secondStep (by simp) (.nil _)

theorem DerivesClosedEntry.reads {tokens : List Token} {field : Field}
    (derived : DerivesClosedEntry tokens field) {draft : Draft} {fields : List Field}
    {phase : Phase} (before : BeforeEntry draft fields phase) :
    phase.Reads tokens (.fieldmapNext draft (fields ++ [field])) := by
  cases derived with
  | @intro _ name _ _ _ _ closing type _ opens named parted typed partedAgain defaulted closes =>
      have closeStep (field : Field) : (Phase.entry draft fields (.close field)).step closing =
          .ok (.fieldmapNext draft (fields ++ [field])) := by
        simp [Phase.step, EntryPhase.step, closes]
      have upToDefault := before.reads_default opens named parted typed partedAgain
      have behind := Phase.Reads.cons (defaulted.step_eq draft fields name type) (by simp)
        (.cons (closeStep _) (by simp) (.nil _))
      exact upToDefault.append behind

/-- Behind an entry stands the next one, whether or not a comma parts them. -/
theorem DerivesEntry.reads {tokens : List Token} {field : Field}
    (derived : DerivesEntry tokens field) {draft : Draft} {fields : List Field}
    {phase : Phase} (before : BeforeEntry draft fields phase) :
    ∃ next, BeforeEntry draft (fields ++ [field]) next ∧ phase.Reads tokens next := by
  cases derived with
  | intro closed trailing =>
      cases trailing with
      | absent =>
          rw [List.append_nil]
          exact ⟨_, .next, closed.reads before⟩
      | @present comma parted =>
          have commaStep : (Phase.fieldmapNext draft (fields ++ [field])).step comma =
              .ok (.fieldmap draft (fields ++ [field])) := by
            simp [Phase.step, parted]
          exact ⟨_, .first, (closed.reads before).append (.cons commaStep (by simp) (.nil _))⟩

theorem reads_entries {tokens : List Token} {values : List Field}
    (derived : Sequence DerivesEntry tokens values) {draft : Draft} {fields : List Field}
    {phase : Phase} (before : BeforeEntry draft fields phase) :
    ∃ next, BeforeEntry draft (fields ++ values) next ∧ phase.Reads tokens next := by
  induction derived generalizing fields phase with
  | nil =>
      rw [List.append_nil]
      exact ⟨phase, before, .nil phase⟩
  | @cons _ _ field rest first _ ih =>
      obtain ⟨middle, beforeMiddle, firstReads⟩ := first.reads before
      obtain ⟨next, beforeNext, restReads⟩ := ih beforeMiddle
      rw [List.append_assoc, List.singleton_append] at beforeNext
      exact ⟨next, beforeNext, firstReads.append restReads⟩

/-! ## Buffered names -/

theorem reads_nextNames {tokens : List Token} {names : List String}
    (derived : Sequence DerivesNextName tokens names) (draft : Draft) (before : List String) :
    (Phase.bufferedNext draft (.ofList before)).Reads tokens
      (.bufferedNext draft (.ofList (before ++ names))) := by
  induction derived generalizing before with
  | nil =>
      rw [List.append_nil]
      exact .nil _
  | cons first _ ih =>
      cases first with
      | @intro comma name parted named =>
          have notClosing := Token.is_eq_false named (.mark .rightParen) (by decide)
          have commaStep : (Phase.bufferedNext draft (.ofList before)).step comma =
              .ok (.buffered draft (.ofList before)) := by
            simp [Phase.step, parted]
          have nameStep : (Phase.buffered draft (.ofList before)).step name =
              .ok (.bufferedNext draft (.ofList (before ++ [name.text]))) := by
            simp [Phase.step, notClosing, named, NameSet.ofList_concat]
          have further := ih (before ++ [name.text])
          rw [List.append_assoc, List.singleton_append] at further
          exact .cons commaStep (by simp) (.cons nameStep (by simp) further)

/-- A list of buffered names with its closing parenthesis ends its item. -/
theorem DerivesNames.reads {tokens : List Token} {names : List String}
    (derived : DerivesNames tokens names) (draft : Draft) {closing : Token}
    (closes : closing.is (.mark .rightParen)) :
    (Phase.buffered draft .empty).Reads (tokens ++ [closing])
      (.itemEnd (draft.add (.buffered names))) := by
  have notComma := Token.is_eq_false closes (.mark .comma) (by decide)
  have closeStep (set : NameSet) : (Phase.buffered draft set).step closing =
      .ok (.itemEnd { draft with buffered := some set }) := by
    simp [Phase.step, closes]
  have closeNextStep (set : NameSet) : (Phase.bufferedNext draft set).step closing =
      .ok (.itemEnd { draft with buffered := some set }) := by
    simp [Phase.step, closes, notComma]
  cases derived with
  | empty => exact .cons (closeStep .empty) (by simp) (.nil _)
  | @listed first more _ rest named moreDerived trailing =>
      have notClosing := Token.is_eq_false named (.mark .rightParen) (by decide)
      have nameStep : (Phase.buffered draft .empty).step first =
          .ok (.bufferedNext draft (.ofList [first.text])) := by
        simp [Phase.step, notClosing, named, NameSet.ofList]
      have moreReads := reads_nextNames moreDerived draft [first.text]
      rw [List.append_assoc, List.cons_append]
      refine .cons nameStep (by simp) (moreReads.append ?_)
      cases trailing with
      | absent => exact .cons (closeNextStep _) (by simp) (.nil _)
      | @present comma parted =>
          have commaStep (set : NameSet) : (Phase.bufferedNext draft set).step comma =
              .ok (.buffered draft set) := by
            simp [Phase.step, parted]
          exact .cons (commaStep _) (by simp) (.cons (closeStep _) (by simp) (.nil _))

/-! ## Items -/

theorem reads_semicolon (draft : Draft) {semicolon : Token}
    (ends : semicolon.is (.mark .semicolon)) :
    (Phase.itemEnd draft).Reads [semicolon] (.body draft) := by
  refine .cons ?_ (by simp) (.nil _)
  simp [Phase.step, ends]

/-- A fieldmap up to its first entry. -/
theorem Draft.reads_fieldmap {draft : Draft} (free : draft.has .fieldmap = false)
    {keyword opening : Token} (word : keyword.isWord Item.fieldmap.keyword)
    (opens : opening.is (.mark .leftParen)) :
    (Phase.body draft).Reads [keyword, opening] (.fieldmap draft []) := by
  have opened : draft.open keyword .fieldmap = .ok (.fieldmapOpen draft) := by
    simpa [Draft.open] using free
  have openStep : (Phase.fieldmapOpen draft).step opening = .ok (.fieldmap draft []) := by
    simp [Phase.step, opens]
  exact .cons_keyword word opened (.cons openStep (by simp) (.nil _))

theorem DerivesItem.reads {tokens : List Token} {content : ItemContent}
    (derived : DerivesItem tokens content) {draft : Draft}
    (free : draft.has content.item = false) :
    (Phase.body draft).Reads tokens (.body (draft.add content)) := by
  cases derived with
  | @header keyword value _ text word denotes ends =>
      have opened : draft.open keyword .header = .ok (.header draft) := by
        simpa [Draft.open, ItemContent.item] using free
      exact .cons_keyword word opened
        (.cons (denotes.step_header draft) (by simp) (reads_semicolon _ ends))
  | @struct keyword _ _ _ word named ends =>
      have opened : draft.open keyword .struct = .ok (.struct draft) := by
        simpa [Draft.open, ItemContent.item] using free
      exact .cons_keyword word opened
        (.cons (named.step_eq draft) (by simp) (reads_semicolon _ ends))
  | @buffered keyword opening _ _ _ _ word opens named closes ends =>
      have opened : draft.open keyword .buffered = .ok (.bufferedOpen draft) := by
        simpa [Draft.open, ItemContent.item] using free
      have openStep : (Phase.bufferedOpen draft).step opening = .ok (.buffered draft .empty) := by
        simp [Phase.step, opens]
      have inside := (named.reads draft closes).append (reads_semicolon _ ends)
      rw [List.append_assoc] at inside
      exact .cons_keyword word opened (.cons openStep (by simp) inside)
  | @fieldmap _ _ closing _ fields word opens entries closes =>
      have start : BeforeEntry draft [] (.fieldmap draft []) := .first
      obtain ⟨behind, before, inside⟩ := reads_entries entries start
      have closeReads := Phase.Reads.cons (before.step_rightParen closes) before.ne_body (.nil _)
      have upToEntries := (draft.reads_fieldmap free word opens).append inside
      exact upToEntries.append closeReads

/-- Items are read one by one as long as each is of a new kind. The draft then holds
those before and those read. -/
theorem reads_items {tokens : List Token} {items : List ItemContent}
    (derived : Sequence DerivesItem tokens items) {draft : Draft} {before : List ItemContent}
    (holds : draft.Holds before) (once : ((before ++ items).map ItemContent.item).Nodup) :
    ∃ next : Draft, next.Holds (before ++ items) ∧ next.name = draft.name ∧
      next.position = draft.position ∧ (Phase.body draft).Reads tokens (.body next) := by
  induction derived generalizing draft before with
  | nil =>
      rw [List.append_nil]
      exact ⟨draft, holds, rfl, rfl, .nil _⟩
  | @cons _ _ content rest first _ ih =>
      rw [List.map_append, List.map_cons] at once
      have free : draft.has content.item = false := by
        rw [holds.has_eq_false_iff]
        intro member
        exact (List.nodup_append.mp once).2.2 _ member _ (by simp) rfl
      have onceAgain : ((before ++ [content] ++ rest).map ItemContent.item).Nodup := by
        simpa using once
      obtain ⟨next, nextHolds, name, position, restReads⟩ := ih (holds.add free) onceAgain
      rw [Draft.add_name] at name
      rw [Draft.add_position] at position
      rw [List.append_assoc, List.singleton_append] at nextHolds
      exact ⟨next, nextHolds, name, position, (first.reads free).append restReads⟩

/-! ## Records and files -/

/-- A record up to its first item. -/
theorem reads_record {keyword name opening : Token} (word : keyword.isWord "record")
    (named : name.is .identifier) (opens : opening.is (.mark .leftBrace)) :
    Phase.Reads .records [keyword, name, opening] (.body (.empty keyword.position name)) := by
  have keywordStep : Phase.step .records keyword = .ok (.recordName keyword.position) := by
    have identifier := Token.is_identifier_of_isWord isIdentifier_recordKeyword word
    have notEnd := Token.is_eq_false identifier .endOfText (by decide)
    simp [Phase.step, notEnd, word]
  have nameStep : (Phase.recordName keyword.position).step name =
      .ok (.bodyOpen (.empty keyword.position name)) := by
    simp [Phase.step, named]
  have openStep (draft : Draft) : (Phase.bodyOpen draft).step opening = .ok (.body draft) := by
    simp [Phase.step, opens]
  exact .cons keywordStep (by simp) (.cons nameStep (by simp) (.cons (openStep _) (by simp) (.nil _)))

theorem DerivesRecord.run_eq {tokens : List Token} {record : Record}
    (derived : DerivesRecord tokens record) (records : List Record) :
    State.run ⟨records, .records⟩ tokens = .ok ⟨records ++ [record], .records⟩ := by
  cases derived with
  | @intro keyword name opening closing body items _ word named opens derivedBody closes once
      gathers recordName recordPosition =>
      have empty := Draft.holds_empty keyword.position name
      obtain ⟨draft, holds, draftName, draftPosition, bodyReads⟩ :=
        reads_items derivedBody empty once
      have finished : draft.finish = .ok record := by
        rw [holds.finish_eq_ok_iff]
        exact ⟨gathers, by rw [recordName, draftName]; rfl, by
          rw [recordPosition, draftPosition]; rfl⟩
      have closeStep : State.step ⟨records, .body draft⟩ closing =
          .ok ⟨records ++ [record], .records⟩ := by
        simp only [State.step, closes, ↓reduceIte, finished]
        rfl
      have header := (reads_record word named opens).append bodyReads
      rw [State.run_append, header records]
      change State.step ⟨records, .body draft⟩ closing >>= _ = _
      rw [closeStep]
      rfl

theorem run_records_eq {tokens : List Token} {derived : List Record}
    (derivation : Sequence DerivesRecord tokens derived) (records : List Record) :
    State.run ⟨records, .records⟩ tokens = .ok ⟨records ++ derived, .records⟩ := by
  induction derivation generalizing records with
  | nil =>
      rw [List.append_nil]
      rfl
  | cons first _ ih =>
      rw [State.run_append, first.run_eq records]
      change State.run _ _ = _
      rw [ih, List.append_assoc, List.singleton_append]

/-- The reader takes a specification and gives the records that it derives. -/
theorem DerivesFile.recordsOf_eq {tokens : List Token} {records : List Record}
    (derived : DerivesFile tokens records) : recordsOf tokens = .ok records := by
  cases derived with
  | @intro body last _ sequence ends =>
      have endStep : State.run ⟨records, .records⟩ [last] = .ok ⟨records, .finished⟩ := by
        simp only [State.run, State.step, Phase.step, ends, ↓reduceIte]
        rfl
      have read : State.initial.run (body ++ [last]) = .ok ⟨records, .finished⟩ := by
        rw [State.run_append, State.initial, run_records_eq sequence, List.nil_append]
        exact endStep
      simp only [recordsOf, List.getLast?_concat, read]
      rfl

end Fieldmap.Spec
