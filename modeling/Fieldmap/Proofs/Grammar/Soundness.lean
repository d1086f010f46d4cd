import Fieldmap.Proofs.Grammar.Draft
import Fieldmap.Proofs.TokenClass
import Fieldmap.Traced

/-!
# The reader takes nothing but specifications

While the reader goes from phase to phase, the tokens behind it account for the
phase it is in: they are derived records, followed by the part of a record that
belongs to the phase. Every step keeps this, and behind the last token it says that
the grammar derives the records read.
-/

namespace Fieldmap.Spec

/-- A choice between a step and a refusal only goes on by the step. -/
theorem take_or_refuse_eq_ok_iff {α : Type} {condition : Bool} {phase : Phase} {token : Token}
    {value next : α} :
    (if condition then .ok value else phase.refuse token) = .ok next ↔
      condition = true ∧ value = next := by
  cases condition <;> simp [Phase.refuse]

theorem refuse_ne_ok {α : Type} {phase : Phase} {token : Token} {next : α} :
    (phase.refuse token : Except Error α) ≠ .ok next := by
  simp [Phase.refuse]

theorem denotes_of_literal {token : Token} {text : String} (quoted : token.is .quoted)
    (read : literal token = .ok text) : Denotes token text := by
  refine ⟨quoted, ?_⟩
  unfold literal at read
  split at read
  · rename_i found
    cases read
    exact found
  · cases read

/-! ## Entries -/

/-- The tokens of an entry that lead to a phase. -/
inductive EntryPhase.Accounts : EntryPhase → List Token → Prop where
  | name {opening : Token} : opening.is (.mark .leftParen) → Accounts .name [opening]
  | nameEnd {tokens : List Token} {name : Token} :
      Accounts .name tokens → name.is .identifier → Accounts (.nameEnd name) (tokens ++ [name])
  | type {tokens : List Token} {name comma : Token} :
      Accounts (.nameEnd name) tokens → comma.is (.mark .comma) →
      Accounts (.type name) (tokens ++ [comma])
  | typeEnd {tokens : List Token} {name typeName : Token} {type : FieldType} :
      Accounts (.type name) tokens → typeName.isWord type.name →
      Accounts (.typeEnd name type) (tokens ++ [typeName])
  | default {tokens : List Token} {name comma : Token} {type : FieldType} :
      Accounts (.typeEnd name type) tokens → comma.is (.mark .comma) →
      Accounts (.default name type) (tokens ++ [comma])
  | close {tokens : List Token} {name value : Token} {type : FieldType}
      {default : Option String} :
      Accounts (.default name type) tokens → DerivesDefault value default →
      Accounts (.close ⟨name.text, name.position, type, default⟩) (tokens ++ [value])

/-- The closing parenthesis makes an entry of what was read. -/
theorem EntryPhase.Accounts.closedEntry {tokens : List Token} {field : Field} {closing : Token}
    (accounts : (EntryPhase.close field).Accounts tokens)
    (closes : closing.is (.mark .rightParen)) :
    DerivesClosedEntry (tokens ++ [closing]) field := by
  rcases accounts with _ | _ | _ | _ | _ | ⟨upToDefault, derivedDefault⟩
  rcases upToDefault with _ | _ | _ | _ | ⟨upToType, secondComma⟩
  rcases upToType with _ | _ | _ | ⟨upToComma, typeName⟩
  rcases upToComma with _ | _ | ⟨upToName, firstComma⟩
  rcases upToName with _ | ⟨opened, name⟩
  rcases opened with ⟨opening⟩
  exact .intro opening name firstComma typeName secondComma derivedDefault closes

/-- What a default may be read as. -/
theorem derivesDefault_of_step {draft : Draft} {fields : List Field} {name value : Token}
    {type : FieldType} {next : Phase}
    (step : (EntryPhase.default name type).step draft fields value = .ok next) :
    ∃ default, DerivesDefault value default ∧
      next = .entry draft fields (.close ⟨name.text, name.position, type, default⟩) := by
  simp only [EntryPhase.step, Bool.or_eq_true] at step
  split at step
  · rename_i bare
    cases step
    split
    · rename_i absent
      exact ⟨none, .absent absent, rfl⟩
    · rename_i present
      rcases bare with identifier | number
      · exact ⟨_, .identifier identifier present, rfl⟩
      · exact ⟨_, .number number, rfl⟩
  · split at step
    · rename_i quoted
      obtain ⟨text, read, step⟩ := exists_of_bind_eq_ok step
      cases step
      exact ⟨some text, .quoted (denotes_of_literal quoted read), rfl⟩
    · exact absurd step refuse_ne_ok

/-! ## Records -/

/-- The tokens of a record up to the end of an item lead to its draft. -/
inductive Draft.Accounts : Draft → List Token → Prop where
  | intro {draft : Draft} {keyword name opening : Token} {body : List Token}
      {items : List ItemContent} :
      keyword.isWord "record" → name.is .identifier → opening.is (.mark .leftBrace) →
      Sequence DerivesItem body items → (items.map ItemContent.item).Nodup →
      draft.Holds items → draft.name = name → draft.position = keyword.position →
      Accounts draft ([keyword, name, opening] ++ body)

/-- One more item of a new kind. -/
theorem Draft.Accounts.add {draft : Draft} {tokens item : List Token} {content : ItemContent}
    (accounts : draft.Accounts tokens) (free : draft.has content.item = false)
    (derived : DerivesItem item content) : (draft.add content).Accounts (tokens ++ item) := by
  cases accounts with
  | intro word named opens sequence once holds nameEq positionEq =>
      rw [List.append_assoc]
      refine .intro word named opens (sequence.concat derived) ?_ (holds.add free) ?_ ?_
      · rw [List.map_append, List.map_singleton, List.nodup_append]
        refine ⟨once, by simp, ?_⟩
        intro earlier earlierMem later laterMem same
        rw [List.mem_singleton] at laterMem
        subst same laterMem
        exact (holds.has_eq_false_iff _).mp free earlierMem
      · rw [Draft.add_name, nameEq]
      · rw [Draft.add_position, positionEq]

/-- The closing brace makes a record of what was read. -/
theorem Draft.Accounts.derivesRecord {draft : Draft} {tokens : List Token} {closing : Token}
    {record : Record} (accounts : draft.Accounts tokens)
    (closes : closing.is (.mark .rightBrace)) (finished : draft.finish = .ok record) :
    DerivesRecord (tokens ++ [closing]) record := by
  cases accounts with
  | intro word named opens sequence once holds nameEq positionEq =>
      obtain ⟨gathers, recordName, recordPosition⟩ := (holds.finish_eq_ok_iff record).mp finished
      rw [nameEq] at recordName
      rw [positionEq] at recordPosition
      exact .intro word named opens sequence closes once gathers recordName recordPosition

/-- The tokens of a record up to the keyword of an item of a new kind. -/
inductive Draft.Opens (draft : Draft) (item : Item) : List Token → Prop where
  | intro {tokens : List Token} {keyword : Token} :
      draft.Accounts tokens → draft.has item = false → keyword.isWord item.keyword →
      draft.Opens item (tokens ++ [keyword])

/-- The tokens behind the last complete record that lead to a phase. Anything may
follow the end of a specification. -/
inductive Phase.Accounts : Phase → List Token → Prop where
  | records : Accounts .records []
  | recordName {keyword : Token} :
      keyword.isWord "record" → Accounts (.recordName keyword.position) [keyword]
  | bodyOpen {keyword name : Token} :
      keyword.isWord "record" → name.is .identifier →
      Accounts (.bodyOpen (.empty keyword.position name)) [keyword, name]
  | body {draft : Draft} {tokens : List Token} :
      draft.Accounts tokens → Accounts (.body draft) tokens
  | header {draft : Draft} {tokens : List Token} :
      draft.Opens .header tokens → Accounts (.header draft) tokens
  | struct {draft : Draft} {tokens : List Token} :
      draft.Opens .struct tokens → Accounts (.struct draft) tokens
  | itemEnd {draft : Draft} {tokens item : List Token} {content : ItemContent} :
      draft.Accounts tokens → draft.has content.item = false →
      (∀ semicolon : Token, semicolon.is (.mark .semicolon) →
        DerivesItem (item ++ [semicolon]) content) →
      Accounts (.itemEnd (draft.add content)) (tokens ++ item)
  | bufferedOpen {draft : Draft} {tokens : List Token} :
      draft.Opens .buffered tokens → Accounts (.bufferedOpen draft) tokens
  | buffered {draft : Draft} {tokens : List Token} {opening : Token} :
      draft.Opens .buffered tokens → opening.is (.mark .leftParen) →
      Accounts (.buffered draft .empty) (tokens ++ [opening])
  | bufferedNext {draft : Draft} {tokens more : List Token} {opening first : Token}
      {names : List String} :
      draft.Opens .buffered tokens → opening.is (.mark .leftParen) → first.is .identifier →
      Sequence DerivesNextName more names →
      Accounts (.bufferedNext draft (.ofList (first.text :: names)))
        (tokens ++ opening :: first :: more)
  | bufferedComma {draft : Draft} {tokens more : List Token} {opening first comma : Token}
      {names : List String} :
      draft.Opens .buffered tokens → opening.is (.mark .leftParen) → first.is .identifier →
      Sequence DerivesNextName more names → comma.is (.mark .comma) →
      Accounts (.buffered draft (.ofList (first.text :: names)))
        (tokens ++ opening :: first :: more ++ [comma])
  | fieldmapOpen {draft : Draft} {tokens : List Token} :
      draft.Opens .fieldmap tokens → Accounts (.fieldmapOpen draft) tokens
  | fieldmap {draft : Draft} {tokens inner : List Token} {opening : Token}
      {fields : List Field} :
      draft.Opens .fieldmap tokens → opening.is (.mark .leftParen) →
      Sequence DerivesEntry inner fields →
      Accounts (.fieldmap draft fields) (tokens ++ opening :: inner)
  | entry {draft : Draft} {tokens inner entry : List Token} {opening : Token}
      {fields : List Field} {phase : EntryPhase} :
      draft.Opens .fieldmap tokens → opening.is (.mark .leftParen) →
      Sequence DerivesEntry inner fields → phase.Accounts entry →
      Accounts (.entry draft fields phase) (tokens ++ opening :: inner ++ entry)
  | fieldmapNext {draft : Draft} {tokens inner entry : List Token} {opening : Token}
      {fields : List Field} {field : Field} :
      draft.Opens .fieldmap tokens → opening.is (.mark .leftParen) →
      Sequence DerivesEntry inner fields → DerivesClosedEntry entry field →
      Accounts (.fieldmapNext draft (fields ++ [field])) (tokens ++ opening :: inner ++ entry)
  | finished {last : Token} {rest : List Token} :
      last.is .endOfText → Accounts .finished (last :: rest)

namespace Draft.Opens

variable {draft : Draft} {tokens inner : List Token} {opening closing value : Token}

/-- An item is complete but for its semicolon. -/
theorem itemEnd {item : Item} {content : ItemContent} (opens : draft.Opens item tokens)
    (kind : content.item = item)
    (derives : ∀ keyword semicolon : Token, keyword.isWord item.keyword →
      semicolon.is (.mark .semicolon) → DerivesItem (keyword :: inner ++ [semicolon]) content) :
    (Phase.itemEnd (draft.add content)).Accounts (tokens ++ inner) := by
  cases opens with
  | @intro before keyword accounts free word =>
      rw [← kind] at free
      rw [List.append_assoc]
      exact .itemEnd accounts free fun semicolon ends => derives keyword semicolon word ends

theorem header (opens : draft.Opens .header tokens) {text : String}
    (denotes : Denotes value text) :
    (Phase.itemEnd (draft.add (.header text))).Accounts (tokens ++ [value]) :=
  opens.itemEnd rfl fun _ _ word ends => .header word denotes ends

theorem struct (opens : draft.Opens .struct tokens) {name : String}
    (derived : DerivesStructName value name) :
    (Phase.itemEnd (draft.add (.struct name))).Accounts (tokens ++ [value]) :=
  opens.itemEnd rfl fun _ _ word ends => .struct word derived ends

/-- The closing parenthesis ends a list of buffered names. -/
theorem buffered (opens : draft.Opens .buffered tokens) {names : List String}
    (opened : opening.is (.mark .leftParen)) (derived : DerivesNames inner names)
    (closes : closing.is (.mark .rightParen)) :
    (Phase.itemEnd (draft.add (.buffered names))).Accounts
      (tokens ++ opening :: inner ++ [closing]) := by
  rw [List.append_assoc]
  apply opens.itemEnd rfl
  intro keyword semicolon word ends
  have whole := DerivesItem.buffered word opened derived closes ends
  simpa using whole

/-- The closing parenthesis ends a fieldmap and its item. -/
theorem fieldmap (opens : draft.Opens .fieldmap tokens) {fields : List Field}
    (opened : opening.is (.mark .leftParen)) (derived : Sequence DerivesEntry inner fields)
    (closes : closing.is (.mark .rightParen)) :
    (draft.add (.fieldmap fields)).Accounts (tokens ++ opening :: inner ++ [closing]) := by
  cases opens with
  | @intro before keyword accounts free word =>
      have free : draft.has (ItemContent.fieldmap fields).item = false := free
      have ended := accounts.add free (.fieldmap word opened derived closes)
      simpa using ended

end Draft.Opens

/-! ## Steps -/

/-- A token of an entry leads from one phase of the entry to the next. -/
theorem EntryPhase.Accounts.step {phase : EntryPhase} {tokens inner entry : List Token}
    {opening token : Token} {draft : Draft} {fields : List Field} {next : Phase}
    (accounts : phase.Accounts entry) (opens : draft.Opens .fieldmap tokens)
    (opened : opening.is (.mark .leftParen)) (derived : Sequence DerivesEntry inner fields)
    (step : phase.step draft fields token = .ok next) :
    next.Accounts (tokens ++ opening :: inner ++ (entry ++ [token])) := by
  cases phase with
  | name =>
      simp only [EntryPhase.step, take_or_refuse_eq_ok_iff] at step
      rcases step with ⟨named, rfl⟩
      exact .entry opens opened derived (.nameEnd accounts named)
  | nameEnd name =>
      simp only [EntryPhase.step, take_or_refuse_eq_ok_iff] at step
      rcases step with ⟨parted, rfl⟩
      exact .entry opens opened derived (.type accounts parted)
  | type name =>
      simp only [EntryPhase.step] at step
      split at step
      · split at step
        · rename_i type found
          cases step
          have word : token.isWord type.name := by
            rw [Token.isWord_iff, ← FieldType.ofName?_eq_some_iff.mp found]
          exact .entry opens opened derived (.typeEnd accounts word)
        · cases step
      · exact absurd step refuse_ne_ok
  | typeEnd name type =>
      simp only [EntryPhase.step, take_or_refuse_eq_ok_iff] at step
      rcases step with ⟨parted, rfl⟩
      exact .entry opens opened derived (.default accounts parted)
  | default name type =>
      obtain ⟨default, derivedDefault, rfl⟩ := derivesDefault_of_step step
      exact .entry opens opened derived (.close accounts derivedDefault)
  | close field =>
      simp only [EntryPhase.step, take_or_refuse_eq_ok_iff] at step
      rcases step with ⟨closes, rfl⟩
      exact .fieldmapNext opens opened derived (accounts.closedEntry closes)

/-- A keyword opens the item of its kind. -/
theorem accounts_of_open {draft : Draft} {tokens : List Token} {token : Token} {item : Item}
    {next : Phase} (accounts : draft.Accounts tokens) (word : token.isWord item.keyword)
    (step : draft.open token item = .ok next) : next.Accounts (tokens ++ [token]) := by
  simp only [Draft.open] at step
  split at step
  · cases step
  · rename_i free
    rw [Bool.not_eq_true] at free
    injection step with opened
    subst opened
    have opens : draft.Opens item (tokens ++ [token]) := .intro accounts free word
    cases item with
    | header => exact .header opens
    | struct => exact .struct opens
    | buffered => exact .bufferedOpen opens
    | fieldmap => exact .fieldmapOpen opens

/-- Behind complete entries the fieldmap ends or a further entry begins. -/
theorem accounts_of_entryOrEnd {draft : Draft} {tokens inner : List Token} {fields : List Field}
    {opening token : Token} {phase next : Phase} (opens : draft.Opens .fieldmap tokens)
    (opened : opening.is (.mark .leftParen)) (derived : Sequence DerivesEntry inner fields)
    (step : entryOrEnd draft fields phase token = .ok next) :
    next.Accounts (tokens ++ opening :: inner ++ [token]) := by
  simp only [entryOrEnd] at step
  split at step
  · rename_i closes
    cases step
    exact .body (opens.fieldmap opened derived closes)
  · rw [take_or_refuse_eq_ok_iff] at step
    rcases step with ⟨opensEntry, rfl⟩
    exact .entry opens opened derived (.name opensEntry)

/-- A token inside a record leads from one phase to the next, and the tokens with it
account for that phase. -/
theorem Phase.Accounts.step {phase next : Phase} {tokens : List Token} {token : Token}
    (accounts : phase.Accounts tokens) (step : phase.step token = .ok next) :
    next.Accounts (tokens ++ [token]) := by
  cases accounts with
  | records =>
      simp only [Phase.step] at step
      split at step
      · rename_i ends
        cases step
        exact .finished ends
      · rw [take_or_refuse_eq_ok_iff] at step
        rcases step with ⟨word, rfl⟩
        exact .recordName word
  | recordName word =>
      simp only [Phase.step, take_or_refuse_eq_ok_iff] at step
      rcases step with ⟨named, rfl⟩
      exact .bodyOpen word named
  | @bodyOpen keyword name word named =>
      simp only [Phase.step, take_or_refuse_eq_ok_iff] at step
      rcases step with ⟨opens, rfl⟩
      exact .body (.intro word named opens .nil .nil (Draft.holds_empty _ _) rfl rfl)
  | body draftAccounts =>
      simp only [Phase.step] at step
      split at step
      · rename_i item found
        exact accounts_of_open draftAccounts (Item.isWord_of_find? found) step
      · exact absurd step refuse_ne_ok
  | header opens =>
      simp only [Phase.step] at step
      split at step
      · rename_i quoted
        obtain ⟨text, read, step⟩ := exists_of_bind_eq_ok step
        cases step
        exact opens.header (denotes_of_literal quoted read)
      · exact absurd step refuse_ne_ok
  | struct opens =>
      simp only [Phase.step] at step
      split at step
      · rename_i quoted
        obtain ⟨name, read, step⟩ := exists_of_bind_eq_ok step
        cases step
        exact opens.struct (.quoted (denotes_of_literal quoted read))
      · rw [take_or_refuse_eq_ok_iff] at step
        rcases step with ⟨named, rfl⟩
        exact opens.struct (.bare named)
  | itemEnd draftAccounts free derives =>
      simp only [Phase.step, take_or_refuse_eq_ok_iff] at step
      rcases step with ⟨ends, rfl⟩
      rw [List.append_assoc]
      exact .body (draftAccounts.add free (derives token ends))
  | bufferedOpen opens =>
      simp only [Phase.step, take_or_refuse_eq_ok_iff] at step
      rcases step with ⟨opened, rfl⟩
      exact .buffered opens opened
  | buffered opens opened =>
      simp only [Phase.step] at step
      split at step
      · rename_i closes
        cases step
        exact opens.buffered opened .empty closes
      · rw [take_or_refuse_eq_ok_iff] at step
        rcases step with ⟨named, rfl⟩
        have next := Phase.Accounts.bufferedNext opens opened named .nil
        rwa [List.append_cons] at next
  | bufferedNext opens opened named more =>
      simp only [Phase.step] at step
      split at step
      · rename_i parted
        cases step
        exact .bufferedComma opens opened named more parted
      · rw [take_or_refuse_eq_ok_iff] at step
        rcases step with ⟨closes, rfl⟩
        have listed := DerivesNames.listed named more .absent
        rw [List.append_nil] at listed
        exact opens.buffered opened listed closes
  | @bufferedComma draft before more opening first comma names opens opened named moreDerived
      parted =>
      simp only [Phase.step] at step
      split at step
      · rename_i closes
        cases step
        have listed := DerivesNames.listed named moreDerived (.present parted)
        rw [List.append_assoc before]
        exact opens.buffered opened listed closes
      · rw [take_or_refuse_eq_ok_iff] at step
        rcases step with ⟨nextNamed, rfl⟩
        have extended := moreDerived.concat (.intro parted nextNamed)
        have next := Phase.Accounts.bufferedNext opens opened named extended
        rw [← List.cons_append, NameSet.ofList_concat] at next
        simpa using next
  | fieldmapOpen opens =>
      simp only [Phase.step, take_or_refuse_eq_ok_iff] at step
      rcases step with ⟨opened, rfl⟩
      exact .fieldmap opens opened .nil
  | fieldmap opens opened entries =>
      exact accounts_of_entryOrEnd opens opened entries step
  | entry opens opened entries entryAccounts =>
      rw [List.append_assoc]
      exact entryAccounts.step opens opened entries step
  | @fieldmapNext draft before inner entry opening fields field opens opened entries closed =>
      simp only [Phase.step] at step
      split at step
      · rename_i parted
        cases step
        have extended := entries.concat (.intro closed (.present parted))
        have next := Phase.Accounts.fieldmap opens opened extended
        simpa using next
      · have whole := DerivesEntry.intro closed .absent
        rw [List.append_nil] at whole
        have next := accounts_of_entryOrEnd opens opened (entries.concat whole) step
        simpa using next
  | finished ends =>
      cases step
      exact .finished ends

/-! ## Runs -/

/-- A token completes a record or leads on within one. -/
theorem State.step_eq_ok {state next : State} {token : Token}
    (step : state.step token = .ok next) :
    (∃ draft record, state.phase = .body draft ∧ token.is (.mark .rightBrace) ∧
      draft.finish = .ok record ∧ next = ⟨state.records ++ [record], .records⟩) ∨
    ∃ phase, state.phase.step token = .ok phase ∧ next = ⟨state.records, phase⟩ := by
  have advance {phase : Phase}
      (advanced : (do return ⟨state.records, ← phase.step token⟩ : Except Error State) = .ok next) :
      ∃ after, phase.step token = .ok after ∧ next = ⟨state.records, after⟩ := by
    obtain ⟨after, stepped, advanced⟩ := exists_of_bind_eq_ok advanced
    cases advanced
    exact ⟨after, stepped, rfl⟩
  unfold State.step at step
  split at step
  · rename_i draft inBody
    split at step
    · rename_i closes
      obtain ⟨record, finished, step⟩ := exists_of_bind_eq_ok step
      cases step
      exact .inl ⟨draft, record, inBody, closes, finished, rfl⟩
    · exact .inr (advance step)
  · exact .inr (advance step)

/-- The tokens read so far account for a state: they are the records read and what
leads to the phase. -/
inductive State.Accounts : State → List Token → Prop where
  | intro {records : List Record} {phase : Phase} {before tokens : List Token} :
      Sequence DerivesRecord before records → phase.Accounts tokens →
      Accounts ⟨records, phase⟩ (before ++ tokens)

theorem State.Accounts.step {state next : State} {tokens : List Token} {token : Token}
    (accounts : state.Accounts tokens) (step : state.step token = .ok next) :
    next.Accounts (tokens ++ [token]) := by
  cases accounts with
  | @intro records phase before tokens derived phaseAccounts =>
      rw [List.append_assoc]
      rcases State.step_eq_ok step with
        ⟨draft, record, inBody, closes, finished, rfl⟩ | ⟨after, stepped, rfl⟩
      · change phase = .body draft at inBody
        subst inBody
        cases phaseAccounts with
        | body draftAccounts =>
            have sequence := derived.concat (draftAccounts.derivesRecord closes finished)
            have between := State.Accounts.intro sequence .records
            rwa [List.append_nil] at between
      · exact .intro derived (phaseAccounts.step stepped)

theorem State.Accounts.run {state next : State} {before tokens : List Token}
    (accounts : state.Accounts before) (run : state.run tokens = .ok next) :
    next.Accounts (before ++ tokens) := by
  induction tokens generalizing state before with
  | nil =>
      cases run
      rwa [List.append_nil]
  | cons token rest ih =>
      rw [State.run_cons] at run
      obtain ⟨middle, stepped, run⟩ := exists_of_bind_eq_ok run
      have further := ih (accounts.step stepped) run
      rwa [List.append_assoc] at further

theorem State.accounts_initial : State.initial.Accounts [] := .intro .nil .records

/-- Records are read when the end of the specification is reached. -/
theorem recordsOf_eq_ok_iff_run {tokens : List Token} {records : List Record}
    (filled : tokens ≠ []) :
    recordsOf tokens = .ok records ↔ State.initial.run tokens = .ok ⟨records, .finished⟩ := by
  have last : tokens.getLast? = some (tokens.getLast filled) := List.getLast?_eq_some_getLast filled
  simp only [recordsOf, last]
  cases ran : State.initial.run tokens with
  | error error =>
      constructor <;> nofun
  | ok state =>
      rcases state with ⟨readRecords, phase⟩
      cases phase with
      | finished => simp [bind, Except.bind]
      | _ => simp [bind, Except.bind, Phase.refuse]

/-- Records are read from nothing but a specification, which some first part of the
tokens is. -/
theorem derivesFile_of_recordsOf {tokens : List Token} {records : List Record}
    (read : recordsOf tokens = .ok records) (filled : tokens ≠ []) :
    ∃ file rest, tokens = file ++ rest ∧ DerivesFile file records := by
  rw [recordsOf_eq_ok_iff_run filled] at read
  have accounts := State.accounts_initial.run read
  rw [List.nil_append] at accounts
  cases accounts with
  | @intro _ _ before _ derived phaseAccounts =>
      cases phaseAccounts with
      | @finished last rest ends =>
          exact ⟨before ++ [last], rest, by simp, .intro derived ends⟩

/-- Where no token in front of the last one is empty, the reader leaves none out. -/
theorem derivesFile_of_recordsOf_concat {body : List Token} {last : Token}
    {records : List Record} (filled : ∀ token ∈ body, token.text ≠ "")
    (read : recordsOf (body ++ [last]) = .ok records) : DerivesFile (body ++ [last]) records := by
  obtain ⟨file, rest, whole, derived⟩ := derivesFile_of_recordsOf read (by simp)
  rcases rest.eq_nil_or_concat with rfl | ⟨front, final, rfl⟩
  · rwa [whole, List.append_nil]
  · cases derived with
    | @intro fileBody fileLast _ _ fileEnds =>
        rw [List.concat_eq_append, ← List.append_assoc] at whole
        have inside : fileLast ∈ body := by simp [List.append_inj_left' whole rfl]
        exact absurd (Token.is_endOfText_iff.mp fileEnds) (filled fileLast inside)

end Fieldmap.Spec
