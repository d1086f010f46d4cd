import Fieldmap.Proofs.EarliestError
import Fieldmap.Proofs.WalkRules

/-!
# Reading stays within the tokens and ends

The nested loops read what the phases read. Hence they ask for no place without a token and
go round no more often than there are tokens, and they read no further than the first
empty token.
-/

namespace Fieldmap.Spec

namespace Walk

variable {tokens : List Token} {index : Nat} {token : Token} {records : List Record}
  {draft : Draft} {fields : List Field} {rounds : Nat}

/-! ## Entries -/

theorem fieldType_passes (name : Token) :
    fieldType.Passes tokens records (.entry draft fields (.type name))
      fun type => .entry draft fields (.typeEnd name type) := by
  intro index reached
  obtain ⟨token, shown⟩ := reached.exists_shown
  apply leads_bind (leads_take reached shown rfl fun _ other => by
    simp [Phase.step, EntryPhase.step, other])
  rintro _ _ ⟨rfl, rfl, inside, identifier⟩
  cases found : FieldType.ofName? token.text with
  | none =>
      have step : (Phase.entry draft fields (.type name)).step token =
          .error ⟨token.position, .unknownType token.text⟩ := by
        simp [Phase.step, EntryPhase.step, identifier, found]
      exact reached.failed_of_phase (by simp) shown inside step
  | some type =>
      have step : (Phase.entry draft fields (.type name)).step token =
          .ok (.entry draft fields (.typeEnd name type)) := by
        simp [Phase.step, EntryPhase.step, identifier, found]
      exact ⟨Nat.le_succ index, reached.advance (by simp) shown inside step⟩

/-- A default completes the field. -/
theorem default_passes (name : Token) (type : FieldType) :
    default.Passes tokens records (.entry draft fields (.default name type))
      fun default =>
        .entry draft fields (.close ⟨name.text, name.position, type, default⟩) := by
  intro index reached
  obtain ⟨token, shown⟩ := reached.exists_shown
  have bare (inside : index < tokens.length)
      (word : token.is .identifier = true ∨ token.is .number = true) :
      Reached tokens ⟨records, .entry draft fields
        (.close ⟨name.text, name.position, type, bareDefault token⟩)⟩ (index + 1) := by
    apply reached.advance (by simp) shown inside
    simp [Phase.step, EntryPhase.step, word, bareDefault]
  apply leads_current shown
  apply leads_eat shown
  · intro inside identifier
    exact leads_pure ⟨Nat.le_succ index, bare inside (.inl identifier)⟩
  intro notIdentifier
  apply leads_eat shown
  · intro inside number
    exact leads_pure ⟨Nat.le_succ index, bare inside (.inr number)⟩
  intro notNumber
  apply leads_eat shown
  · intro inside quoted
    have step : (Phase.entry draft fields (.default name type)).step token =
        literal token >>= fun text => .ok (.entry draft fields
          (.close ⟨name.text, name.position, type, some text⟩)) := by
      simp [Phase.step, EntryPhase.step, notIdentifier inside, notNumber inside, quoted]
    apply leads_bind (leads_literal reached (by simp) shown inside step)
    rintro text _ ⟨rfl, nextReached⟩
    exact leads_pure ⟨Nat.le_succ index, nextReached⟩
  · intro notQuoted
    apply reached.refused_of_phase (by simp) (by simp) shown
    intro inside
    simp [Phase.step, EntryPhase.step, notIdentifier inside, notNumber inside, notQuoted inside]

/-- Without a comma the phase behind an entry does what the one before an entry does. -/
theorem eat_comma_passes :
    (eat (·.is (.mark .comma))).Passes tokens records (.fieldmapNext draft fields)
      fun _ => .fieldmap draft fields := by
  intro index reached
  obtain ⟨token, shown⟩ := reached.exists_shown
  rw [← bind_pure (eat _)]
  apply leads_eat shown
  · intro inside parted
    exact leads_pure ⟨Nat.le_succ index,
      reached.advance (by simp) shown inside (by simp [Phase.step, parted])⟩
  · intro notParted
    -- The two phases differ over a comma alone, and they refuse a token for the same fault.
    refine leads_pure ⟨Nat.le_refl index, reached.of_step_eq shown ?_ rfl⟩
    intro inside
    simp only [State.step, Phase.step, notParted inside, Bool.false_eq_true, ↓reduceIte]
    rfl

theorem entryParts_passes :
    entryParts.Passes tokens records (.entry draft fields .name)
      fun field => .fieldmap draft (fields ++ [field]) := by
  refine (take_passes (fun _ => rfl) fun _ => rfl).bind fun name => ?_
  refine (expect_passes (fun _ => rfl) fun _ => rfl).bind fun _ => ?_
  refine (fieldType_passes name).bind fun type => ?_
  refine (expect_passes (fun _ => rfl) fun _ => rfl).bind fun _ => ?_
  refine (default_passes name type).bind fun default => ?_
  refine (expect_passes (fun _ => rfl) fun _ => rfl).bind fun _ => ?_
  refine eat_comma_passes.bind fun _ => ?_
  exact passes_pure _

/-- An entry is read where the fieldmap does not end. -/
theorem leads_entry (reached : Reached tokens ⟨records, .fieldmap draft fields⟩ index)
    (shown : Shown tokens index token)
    (goesOn : index < tokens.length → token.is (.mark .rightParen) = false) :
    entry.Leads tokens index fun field place =>
      index < place ∧ Reached tokens ⟨records, .fieldmap draft (fields ++ [field])⟩ place := by
  apply leads_bind (leads_expect reached shown rfl fun inside other => by
    simp [Phase.step, entryOrEnd, goesOn inside, other])
  rintro _ _ ⟨rfl, inside, opens⟩
  have step : (Phase.fieldmap draft fields).step token = .ok (.entry draft fields .name) := by
    simp [Phase.step, entryOrEnd, goesOn inside, opens]
  exact entryParts_passes _ (reached.advance (by simp) shown inside step)

/-! ## Items -/

/-- A phase that awaits a quoted token passes on with its text. -/
theorem takeLiteral_passes {phase : Phase} {what : Expectation} {next : String → Phase}
    (refusal : ∀ found, phase.refusal found = .expected what found)
    (step : ∀ token, phase.step token = if token.is .quoted then
      literal token >>= fun text => .ok (next text) else phase.refuse token) :
    (takeLiteral what).Passes tokens records phase next := by
  intro index reached
  obtain ⟨token, shown⟩ := reached.exists_shown
  have outside := (Phase.within_of_refusal (refusal token.text)).1
  apply leads_bind (leads_take reached shown (refusal _) fun _ other => by simp [step, other])
  rintro _ _ ⟨rfl, rfl, inside, quoted⟩
  have read := step token
  rw [if_pos quoted] at read
  apply (leads_literal reached outside shown inside read).mono
  rintro text _ ⟨rfl, nextReached⟩
  exact ⟨Nat.le_succ index, nextReached⟩

theorem header_passes :
    (header draft).Passes tokens records (.header draft) fun next => .body next := by
  refine (takeLiteral_passes (fun _ => rfl) fun _ => rfl).bind fun text => ?_
  refine (expect_passes (fun _ => rfl) fun _ => rfl).bind fun _ => ?_
  exact passes_pure _

theorem structName_passes :
    structName.Passes tokens records (.struct draft)
      fun name => .itemEnd { draft with structName := some name } := by
  intro index reached
  obtain ⟨token, shown⟩ := reached.exists_shown
  apply leads_current shown
  apply leads_eat shown
  · intro inside quoted
    have step : (Phase.struct draft).step token = literal token >>= fun name =>
        .ok (.itemEnd { draft with structName := some name }) := by
      simp [Phase.step, quoted]
      rfl
    apply (leads_literal reached (by simp) shown inside step).mono
    rintro name _ ⟨rfl, nextReached⟩
    exact ⟨Nat.le_succ index, nextReached⟩
  · intro notQuoted
    apply leads_bind (leads_expect reached shown rfl fun inside other => by
      simp [Phase.step, notQuoted inside, other])
    rintro _ _ ⟨rfl, inside, identifier⟩
    have step : (Phase.struct draft).step token =
        .ok (.itemEnd { draft with structName := some token.text }) := by
      simp [Phase.step, notQuoted inside, identifier]
    exact leads_pure ⟨Nat.le_succ index, reached.advance (by simp) shown inside step⟩

theorem struct_passes :
    (struct draft).Passes tokens records (.struct draft) fun next => .body next := by
  refine structName_passes.bind fun name => ?_
  refine (expect_passes (fun _ => rfl) fun _ => rfl).bind fun _ => ?_
  exact passes_pure _

/-- A name is read where the list does not end, and without a comma behind it the list ends. -/
theorem leads_bufferedName {names : NameSet}
    (reached : Reached tokens ⟨records, .buffered draft names⟩ index)
    (shown : Shown tokens index token)
    (goesOn : index < tokens.length → token.is (.mark .rightParen) = false) :
    (bufferedName names).Leads tokens index
      (RoundEnds tokens (fun names => ⟨records, .buffered draft names⟩)
        (fun names => Reached tokens ⟨records, .itemEnd { draft with buffered := some names }⟩)
        index) := by
  apply leads_bind (leads_take reached shown rfl fun inside other => by
    simp [Phase.step, goesOn inside, other])
  rintro _ _ ⟨rfl, rfl, inside, identifier⟩
  have step : (Phase.buffered draft names).step token =
      .ok (.bufferedNext draft (names.insert token.text)) := by
    simp [Phase.step, goesOn inside, identifier]
  have named := reached.advance (by simp) shown inside step
  obtain ⟨second, secondShown⟩ := named.exists_shown
  apply leads_eat secondShown
  · intro further parted
    have parts : (Phase.bufferedNext draft (names.insert token.text)).step second =
        .ok (.buffered draft (names.insert token.text)) := by
      simp [Phase.step, parted]
    exact leads_pure ⟨by omega, named.advance (by simp) secondShown further parts⟩
  · intro notParted
    apply leads_bind (leads_expect named secondShown rfl fun further other => by
      simp [Phase.step, notParted further, other])
    rintro _ _ ⟨rfl, further, closes⟩
    have ends : (Phase.bufferedNext draft (names.insert token.text)).step second =
        .ok (.itemEnd { draft with buffered := some (names.insert token.text) }) := by
      simp [Phase.step, notParted further, closes]
    exact leads_pure ⟨by omega, named.advance (by simp) secondShown further ends⟩

section

variable (enough : tokens.length < rounds)

include enough

theorem buffered_passes :
    (buffered rounds draft).Passes tokens records (.bufferedOpen draft) fun next => .body next := by
  have names := untilEaten_passes enough (fun _ _ => by simp)
    (fun names token closes => by simp [Phase.step, closes])
    (fun _ _ _ => @leads_bufferedName tokens _ _ records draft _) .empty
  refine (expect_passes (fun _ => rfl) fun _ => rfl).bind fun _ => ?_
  refine names.bind fun names => ?_
  refine (expect_passes (fun _ => rfl) fun _ => rfl).bind fun _ => ?_
  exact passes_pure _

theorem fieldmap_passes :
    (fieldmap rounds draft).Passes tokens records (.fieldmapOpen draft) fun next => .body next := by
  have round (fields : List Field) (index : Nat) (token : Token)
      (reached : Reached tokens ⟨records, .fieldmap draft fields⟩ index)
      (shown : Shown tokens index token)
      (goesOn : index < tokens.length → token.is (.mark .rightParen) = false) :
      (do return ForInStep.yield (fields ++ [← entry]) : Walk _).Leads tokens index
        (RoundEnds tokens (fun fields => ⟨records, .fieldmap draft fields⟩)
          (fun fields => Reached tokens ⟨records, .body { draft with fields := some fields }⟩)
          index) :=
    leads_bind (leads_entry reached shown goesOn) fun _ _ moved => leads_pure moved
  have entries := untilEaten_passes enough (fun _ _ => by simp)
    (fun fields token closes => by simp [Phase.step, entryOrEnd, closes]) round []
  refine (expect_passes (fun _ => rfl) fun _ => rfl).bind fun _ => ?_
  refine entries.bind fun fields => ?_
  exact passes_pure _

/-- Behind its keyword an item is read, or refused if the record has one of its kind. -/
theorem leads_behindKeyword {item : Item}
    (reached : Reached tokens ⟨records, .body draft⟩ index) (shown : Shown tokens index token)
    (inside : index < tokens.length) (word : token.isWord item.keyword = true) :
    (behindKeyword rounds draft item).Leads tokens (index + 1) fun next place =>
      index < place ∧ Reached tokens ⟨records, .body next⟩ place := by
  have identifier := Token.is_identifier_of_isWord item.isIdentifier_keyword word
  have notBrace := Token.is_eq_false identifier (.mark .rightBrace) (by decide)
  have step : State.step ⟨records, .body draft⟩ token =
      (draft.open token item).map (State.mk records) := by
    simp only [State.step, notBrace, Bool.false_eq_true, ↓reduceIte, Phase.step,
      Item.find?_keyword word]
    cases draft.open token item <;> rfl
  unfold behindKeyword
  unfold Draft.open at step
  split
  · rename_i taken
    rw [if_pos taken] at step
    -- The place is behind the keyword, so there is a token in front of it.
    have run : (previous.run tokens).run (index + 1) = .ok (token, index + 1) :=
      run_tokenAt shown (index + 1)
    exact leads_of_run run (reached.failed shown inside step)
  · rename_i free
    rw [if_neg free] at step
    have opened := reached.next shown inside step
    cases item with
    | header => exact header_passes _ opened
    | struct => exact struct_passes _ opened
    | buffered => exact buffered_passes enough _ opened
    | fieldmap => exact fieldmap_passes enough _ opened

/-- Where the record does not end an item is read. The kinds that have been tried before are
not those of the token. -/
theorem leads_itemOf (reached : Reached tokens ⟨records, .body draft⟩ index)
    (shown : Shown tokens index token)
    (goesOn : index < tokens.length → token.is (.mark .rightBrace) = false) (kinds : List Item)
    (tried : index < tokens.length →
      ∀ item, item ∉ kinds → token.isWord item.keyword = false) :
    (itemOf rounds draft kinds).Leads tokens index fun next place =>
      index < place ∧ Reached tokens ⟨records, .body next⟩ place := by
  induction kinds with
  | nil =>
      apply leads_unexpected shown
      apply reached.refused shown (by simp)
      intro inside
      have unknown : (Item.all.find? fun item => token.isWord item.keyword) = none := by
        rw [List.find?_eq_none]
        intro item _
        simp [tried inside item List.not_mem_nil]
      simp only [State.step, goesOn inside, Bool.false_eq_true, ↓reduceIte, Phase.step, unknown]
      rfl
  | cons kind others ih =>
      apply leads_eat shown
      · intro inside word
        exact leads_behindKeyword enough reached shown inside word
      · intro notWord
        apply ih
        intro inside item notOther
        by_cases same : item = kind
        · rw [same]
          exact notWord inside
        · apply tried inside
          rw [List.mem_cons, not_or]
          exact ⟨same, notOther⟩

/-! ## Records -/

/-- The brace that ends a body makes a record of what was read. -/
theorem leads_body (reached : Reached tokens ⟨records, .body draft⟩ index) :
    (body rounds draft).Leads tokens index fun record place =>
      index < place ∧ Reached tokens ⟨records ++ [record], .records⟩ place := by
  have round (draft : Draft) (index : Nat) (token : Token)
      (reached : Reached tokens ⟨records, .body draft⟩ index) (shown : Shown tokens index token)
      (goesOn : index < tokens.length → token.is (.mark .rightBrace) = false) :
      (do return ForInStep.yield (← itemOf rounds draft Item.all) : Walk _).Leads tokens index
        (RoundEnds tokens (fun draft => ⟨records, .body draft⟩)
          (fun draft place => (check draft.finish).Leads tokens place fun record final =>
            final = place ∧ Reached tokens ⟨records ++ [record], .records⟩ place) index) :=
    leads_bind (leads_itemOf enough reached shown goesOn Item.all
      fun _ item notListed => absurd item.mem_all notListed) fun _ _ moved => leads_pure moved
  refine leads_bind (leads_untilEaten ?_ round reached (by omega)) ?_
  -- The step over the brace also finishes the draft, which the walk does behind the loop.
  · intro draft index token reached shown inside closes
    have step : State.step ⟨records, .body draft⟩ token =
        draft.finish >>= fun record => .ok ⟨records ++ [record], .records⟩ := by
      simp only [State.step, closes, ↓reduceIte]
      rfl
    apply (leads_check reached shown inside step).mono
    rintro record _ ⟨rfl, nextReached⟩
    exact ⟨rfl, nextReached⟩
  · rintro draft place ⟨lt, finishes⟩
    apply finishes.mono
    rintro record _ ⟨rfl, nextReached⟩
    exact ⟨lt, nextReached⟩

/-- A record is read where the specification does not end. -/
theorem leads_record {behind : List Record → Nat → Prop}
    (reached : Reached tokens ⟨records, .records⟩ index) (shown : Shown tokens index token)
    (goesOn : index < tokens.length → token.is .endOfText = false) :
    (record rounds records).Leads tokens index
      (RoundEnds tokens (fun records => ⟨records, .records⟩) behind index) := by
  apply leads_current shown
  apply leads_eat shown
  · intro inside word
    have step : Phase.records.step token = .ok (.recordName token.position) := by
      simp [Phase.step, goesOn inside, word]
    have takesName : (take (·.is .identifier) .identifier).Passes tokens records
        (.recordName token.position) fun name => .bodyOpen (.empty token.position name) :=
      take_passes (fun _ => rfl) fun _ => rfl
    apply leads_bind (takesName _ (reached.advance (by simp) shown inside step))
    rintro name opening ⟨nameLe, named⟩
    have opens : (expectMark .leftBrace).Passes tokens records
        (.bodyOpen (.empty token.position name)) fun _ => .body (.empty token.position name) :=
      expect_passes (fun _ => rfl) fun _ => rfl
    apply leads_bind (opens _ named)
    rintro _ start ⟨openingLe, opened⟩
    apply leads_bind (leads_body enough opened)
    rintro record place ⟨lt, ended⟩
    exact leads_pure ⟨by omega, ended⟩
  · intro notWord
    apply leads_unexpected shown
    apply reached.refused_of_phase (by simp) (by simp) shown
    intro inside
    simp [Phase.step, goesOn inside, notWord inside]

/-- The empty token ends the loop over records with what the reader gets. -/
theorem leads_records (filled : tokens ≠ []) :
    (Walk.records rounds).Leads tokens 0 fun records _ => recordsOf tokens = .ok records := by
  have run : ((MonadReader.read : Walk (List Token)).run tokens).run 0 = .ok (tokens, 0) := rfl
  apply leads_of_run run
  rw [if_neg (by simpa using filled)]
  have loop : (untilEaten (·.is .endOfText) (record rounds) rounds []).Leads tokens 0
      fun records place => 0 < place ∧ recordsOf tokens = .ok records := by
    refine leads_untilEaten ?_ (fun _ _ _ => leads_record enough) (.initial filled) (by omega)
    intro records index token reached shown inside ends
    have step : Phase.records.step token = .ok .finished := by
      simp [Phase.step, ends]
    exact (reached.advance (by simp) shown inside step).eq_ok_of_finished
  apply loop.mono
  rintro records _ ⟨_, read⟩
  exact read

end

end Walk

/-! ## The whole reader -/

/-- With a round more than there are tokens, the loops get what the phases get. -/
theorem recordsWithin_eq {tokens : List Token} {rounds : Nat} (enough : tokens.length < rounds) :
    recordsWithin rounds tokens = (recordsOf tokens).mapError .refused := by
  by_cases filled : tokens = []
  · subst filled
    rfl
  · have leads := Walk.leads_records enough filled
    unfold Walk.Leads at leads
    unfold recordsWithin
    split at leads
    · rename_i run
      rw [run, leads]
      rfl
    · rename_i run
      rw [run, leads]
      rfl
    · exact leads.elim

/-- Tokens that are refused on the way are refused whatever follows. -/
theorem recordsOf_eq_error_of_run {front : List Token} {error : Error}
    (refused : State.initial.run front = .error error) (rest : List Token) :
    recordsOf (front ++ rest) = .error error := by
  unfold recordsOf
  split
  · rename_i none
    rw [List.getLast?_eq_none_iff, List.append_eq_nil_iff] at none
    rw [none.1] at refused
    cases refused
  · rw [State.run_append, refused]
    rfl

/-- What stands behind an empty token is not read. -/
theorem recordsOf_append_of_end {front : List Token} {last : Token} (ends : last.is .endOfText)
    (rest : List Token) : recordsOf (front ++ [last] ++ rest) = recordsOf (front ++ [last]) := by
  cases run : State.initial.run (front ++ [last]) with
  | error error =>
      have refused := recordsOf_eq_error_of_run run
      have alone := refused []
      rw [List.append_nil] at alone
      rw [refused rest, alone]
  | ok state =>
      rcases state with ⟨records, phase⟩
      have finished : phase = .finished := State.finished_of_run ends run
      subst finished
      have runAll : State.initial.run (front ++ [last] ++ rest) = .ok ⟨records, .finished⟩ := by
        rw [State.run_append, run]
        exact State.run_finished records rest
      rw [(recordsOf_eq_ok_iff_run (by simp)).mpr run,
        (recordsOf_eq_ok_iff_run (by simp)).mpr runAll]

/-- Tokens of which none is empty are refused. -/
theorem exists_error_of_filled {tokens : List Token} (present : tokens ≠ [])
    (filled : ∀ token ∈ tokens, token.text ≠ "") : ∃ error, recordsOf tokens = .error error := by
  cases read : recordsOf tokens with
  | error error => exact ⟨error, rfl⟩
  | ok records =>
      have run := (recordsOf_eq_ok_iff_run present).mp read
      exact absurd rfl (State.unfinished_of_run filled run)

/-- The first empty token is the last one that is read, and tokens without one are refused.
Loops that move a place through the tokens read the same: they never ask for a token where
there is none, and with more rounds each than there are tokens all of them end. -/
theorem recordsOf_withinTokens (tokens : List Token) :
    (∀ index, tokens.findIdx? (·.text == "") = some index →
      recordsOf tokens = recordsOf (tokens.take (index + 1))) ∧
    (tokens ≠ [] → (∀ token ∈ tokens, token.text ≠ "") →
      ∃ error, recordsOf tokens = .error error) ∧
    ∀ rounds, tokens.length < rounds →
      recordsWithin rounds tokens = (recordsOf tokens).mapError .refused := by
  refine ⟨?_, exists_error_of_filled, fun rounds => recordsWithin_eq⟩
  intro index found
  obtain ⟨inside, empty, _⟩ := List.findIdx?_eq_some_iff_getElem.mp found
  have ends : tokens[index].is .endOfText := by
    rw [Token.is_endOfText_iff]
    simpa using empty
  have taken : tokens.take (index + 1) = tokens.take index ++ [tokens[index]] :=
    List.take_succ_eq_append_getElem inside
  have cut : recordsOf (tokens.take index ++ [tokens[index]] ++ tokens.drop (index + 1)) =
      recordsOf (tokens.take index ++ [tokens[index]]) :=
    recordsOf_append_of_end ends _
  rw [← taken, List.take_append_drop] at cut
  exact cut

-- The second header is refused at its keyword, to which the place has to step back.
example : recordsWithin 9 [⟨"record", ⟨1, 1⟩⟩, ⟨"a", ⟨1, 8⟩⟩, ⟨"\x7b", ⟨1, 10⟩⟩,
    ⟨"header", ⟨2, 1⟩⟩, ⟨"\"\"", ⟨2, 8⟩⟩, ⟨";", ⟨2, 10⟩⟩, ⟨"header", ⟨3, 1⟩⟩] =
      .error (.refused ⟨⟨3, 1⟩, .duplicateItem "header"⟩) := by
  decide +kernel

-- A loop that may not go round again does not end by itself.
example : recordsWithin 0 [⟨"", ⟨1, 1⟩⟩] = .error .endless := rfl

end Fieldmap.Spec
