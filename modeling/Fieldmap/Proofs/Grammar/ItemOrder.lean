import Fieldmap.Proofs.Grammar.Completeness
import Fieldmap.Proofs.Grammar.Soundness

/-!
# What an item does wherever it stands

An item is read in a body with no item of its kind, and is passed over behind the end of a
specification. Anywhere else it is refused: what it begins with stands nowhere else. An item
fills one slot of the draft and looks at no other, so the order of items makes no difference.
-/

namespace Fieldmap.Spec

/-! ## Where an item may begin -/

/-- What stands behind the keyword of an item. -/
inductive BeginsItem (token : Token) : Prop where
  | quoted : token.is .quoted → BeginsItem token
  | identifier : token.is .identifier → BeginsItem token
  | leftParen : token.is (.mark .leftParen) → BeginsItem token

theorem BeginsItem.is_mark_eq_false {token : Token} (begins : BeginsItem token) (mark : Mark)
    (different : mark ≠ .leftParen) : token.is (.mark mark) = false := by
  cases begins with
  | quoted quoted => exact Token.is_eq_false quoted _ (by simp)
  | identifier identifier => exact Token.is_eq_false identifier _ (by simp)
  | leftParen opens => exact Token.is_eq_false opens _ (by simpa using different.symm)

theorem DerivesItem.exists_begin {tokens : List Token} {content : ItemContent}
    (derived : DerivesItem tokens content) :
    ∃ keyword second rest, tokens = keyword :: second :: rest ∧
      keyword.isWord content.item.keyword ∧ BeginsItem second := by
  cases derived with
  | header word denotes _ => exact ⟨_, _, _, rfl, word, .quoted denotes.1⟩
  | struct word named _ =>
      refine ⟨_, _, _, rfl, word, ?_⟩
      cases named with
      | quoted denotes => exact .quoted denotes.1
      | bare identifier => exact .identifier identifier
  | buffered word opens _ _ _ => exact ⟨_, _, _, rfl, word, .leftParen opens⟩
  | fieldmap word opens _ _ => exact ⟨_, _, _, rfl, word, .leftParen opens⟩

theorem DerivesItem.ne_nil {tokens : List Token} {content : ItemContent}
    (derived : DerivesItem tokens content) : tokens ≠ [] := by
  rcases derived.exists_begin with ⟨keyword, second, rest, rfl, _⟩
  exact List.cons_ne_nil keyword _

/-- In other phases a keyword is refused, or taken for a name, behind which there is a mark. -/
theorem Phase.body_or_finished {phase middle next : Phase} {keyword second : Token} {item : Item}
    (word : keyword.isWord item.keyword) (begins : BeginsItem second)
    (first : phase.step keyword = .ok middle) (further : middle.step second = .ok next) :
    (∃ draft, phase = .body draft) ∨ phase = .finished := by
  have identifier := Token.is_identifier_of_isWord item.isIdentifier_keyword word
  have notMark (mark : Mark) := Token.is_eq_false identifier (.mark mark) (by simp)
  have notQuoted := Token.is_eq_false identifier .quoted (by decide)
  have notEnd := Token.is_eq_false identifier .endOfText (by decide)
  have noBrace := begins.is_mark_eq_false .leftBrace (by decide)
  have noSemicolon := begins.is_mark_eq_false .semicolon (by decide)
  have noComma := begins.is_mark_eq_false .comma (by decide)
  have noParen := begins.is_mark_eq_false .rightParen (by decide)
  -- Where any identifier may stand, the keyword is taken, and its second token is refused.
  cases phase with
  | body draft => exact .inl ⟨draft, rfl⟩
  | finished => exact .inr rfl
  | records =>
      have notRecord : keyword.isWord "record" = false := by
        rw [Token.isWord, Token.isWord_iff.mp word]
        cases item <;> decide
      simp [Phase.step, notEnd, notRecord, Phase.refuse] at first
  | recordName position =>
      simp only [Phase.step, identifier, ↓reduceIte, Except.ok.injEq] at first
      simp [← first, Phase.step, noBrace, Phase.refuse] at further
  | struct draft =>
      simp only [Phase.step, notQuoted, identifier, Bool.false_eq_true, ↓reduceIte,
        Except.ok.injEq] at first
      simp [← first, Phase.step, noSemicolon, Phase.refuse] at further
  | buffered draft names =>
      simp only [Phase.step, notMark, identifier, Bool.false_eq_true, ↓reduceIte,
        Except.ok.injEq] at first
      simp [← first, Phase.step, noComma, noParen, Phase.refuse] at further
  | entry draft fields part =>
      cases part with
      | name =>
          simp only [Phase.step, EntryPhase.step, identifier, ↓reduceIte, Except.ok.injEq] at first
          simp [← first, Phase.step, EntryPhase.step, noComma, Phase.refuse] at further
      | type name =>
          simp only [Phase.step, EntryPhase.step, identifier, ↓reduceIte] at first
          split at first
          · cases first
            simp [Phase.step, EntryPhase.step, noComma, Phase.refuse] at further
          · cases first
      | default name type =>
          simp only [Phase.step, EntryPhase.step, identifier, Bool.true_or, ↓reduceIte,
            Except.ok.injEq] at first
          simp [← first, Phase.step, EntryPhase.step, noParen, Phase.refuse] at further
      | nameEnd | typeEnd | close =>
          simp [Phase.step, EntryPhase.step, notMark, Phase.refuse] at first
  | _ => simp [Phase.step, entryOrEnd, notMark, notQuoted, Phase.refuse] at first

/-! ## The run of an item -/

theorem State.run_append_eq_ok_iff {state next : State} {left right : List Token} :
    state.run (left ++ right) = .ok next ↔
      ∃ middle, state.run left = .ok middle ∧ middle.run right = .ok next := by
  rw [run_append]
  cases state.run left with
  | error error =>
      constructor
      · intro run
        cases run
      · rintro ⟨_, reached, _⟩
        cases reached
  | ok middle =>
      constructor
      · intro run
        exact ⟨middle, rfl, run⟩
      · rintro ⟨_, reached, run⟩
        cases reached
        exact run

theorem State.run_finished (records : List Record) (tokens : List Token) :
    State.run ⟨records, .finished⟩ tokens = .ok ⟨records, .finished⟩ := by
  induction tokens with
  | nil => rfl
  | cons token rest ih => exact ih

theorem State.phase_step_of_run {state next : State} {token : Token} {rest : List Token}
    (notBrace : token.is (.mark .rightBrace) = false)
    (run : state.run (token :: rest) = .ok next) :
    ∃ phase, state.phase.step token = .ok phase ∧
      State.run ⟨state.records, phase⟩ rest = .ok next := by
  rw [run_cons] at run
  obtain ⟨middle, stepped, run⟩ := exists_of_bind_eq_ok run
  rcases State.step_eq_ok stepped with ⟨_, _, _, closes, _⟩ | ⟨phase, phaseStep, rfl⟩
  · rw [notBrace] at closes
    cases closes
  · exact ⟨phase, phaseStep, run⟩

/-- An item is only read where its slot is free, or behind the end. -/
theorem DerivesItem.free_or_finished {tokens : List Token} {content : ItemContent}
    (derived : DerivesItem tokens content) {records : List Record} {phase : Phase} {next : State}
    (run : State.run ⟨records, phase⟩ tokens = .ok next) :
    (∃ draft, phase = .body draft ∧ draft.has content.item = false) ∨ phase = .finished := by
  rcases derived.exists_begin with ⟨keyword, second, rest, rfl, word, begins⟩
  have identifier := Token.is_identifier_of_isWord content.item.isIdentifier_keyword word
  have notBrace := Token.is_eq_false identifier (.mark .rightBrace) (by decide)
  have noBrace := begins.is_mark_eq_false .rightBrace (by decide)
  rcases State.phase_step_of_run notBrace run with ⟨middle, first, restRun⟩
  rcases State.phase_step_of_run noBrace restRun with ⟨_, further, _⟩
  have first : phase.step keyword = .ok middle := first
  rcases Phase.body_or_finished word begins first further with ⟨draft, rfl⟩ | atEnd
  · refine .inl ⟨draft, rfl, ?_⟩
    rw [← Bool.not_eq_true]
    intro taken
    simp [Phase.step, Item.find?_keyword word, Draft.open, taken] at first
  · exact .inr atEnd

/-- The states between which an item leads: it fills its slot, or stands behind the end. -/
inductive ItemContent.Advances (content : ItemContent) : State → State → Prop where
  | filled {records : List Record} {draft : Draft} : draft.has content.item = false →
      content.Advances ⟨records, .body draft⟩ ⟨records, .body (draft.add content)⟩
  | finished {records : List Record} : content.Advances ⟨records, .finished⟩ ⟨records, .finished⟩

theorem DerivesItem.run_eq_ok_iff {tokens : List Token} {content : ItemContent}
    (derived : DerivesItem tokens content) {state next : State} :
    state.run tokens = .ok next ↔ content.Advances state next := by
  constructor
  · intro run
    rcases state with ⟨records, phase⟩
    rcases derived.free_or_finished run with ⟨draft, rfl, free⟩ | rfl
    · rw [derived.reads free records, Except.ok.injEq] at run
      subst run
      exact .filled free
    · rw [State.run_finished, Except.ok.injEq] at run
      subst run
      exact .finished
  · intro advances
    cases advances with
    | filled free => exact derived.reads free _
    | finished => exact State.run_finished _ tokens

/-! ## Tokens that are read alike -/

/-- Tokens that lead from every state to the same one, if to any. -/
def ReadAlike (left right : List Token) : Prop :=
  ∀ state next : State, state.run left = .ok next ↔ state.run right = .ok next

namespace ReadAlike

variable {left middle right : List Token}

theorem refl (tokens : List Token) : ReadAlike tokens tokens := fun _ _ => Iff.rfl

theorem trans (first : ReadAlike left middle) (second : ReadAlike middle right) :
    ReadAlike left right :=
  fun state next => (first state next).trans (second state next)

theorem append {left' right' : List Token} (first : ReadAlike left right)
    (second : ReadAlike left' right') : ReadAlike (left ++ left') (right ++ right') := by
  intro state next
  rw [State.run_append_eq_ok_iff, State.run_append_eq_ok_iff]
  exact exists_congr fun middle => and_congr (first state middle) (second middle next)

/-- What stands around tokens that are read alike does not matter. -/
theorem inside (alike : ReadAlike left right) (before after : List Token) :
    ReadAlike (before ++ left ++ after) (before ++ right ++ after) :=
  ((refl before).append alike).append (refl after)

end ReadAlike

/-! ## The order of items -/

/-- One more item takes its own slot and no other. -/
theorem Draft.has_add_eq_false_iff {draft : Draft} {content : ItemContent} {item : Item} :
    (draft.add content).has item = false ↔ draft.has item = false ∧ content.item ≠ item := by
  cases content <;> cases item <;> simp [Draft.add, Draft.has, ItemContent.item]

/-- Items of different kinds fill different slots. -/
theorem Draft.add_comm (draft : Draft) {left right : ItemContent}
    (different : left.item ≠ right.item) :
    (draft.add left).add right = (draft.add right).add left := by
  cases left <;> cases right <;> first
    | rfl
    | exact absurd rfl different

/-- Two items that follow each other may be exchanged. -/
theorem ItemContent.Advances.swap {left right : ItemContent} {state middle next : State}
    (first : left.Advances state middle) (second : right.Advances middle next) :
    ∃ other, right.Advances state other ∧ left.Advances other next := by
  cases first with
  | @filled records draft leftFree =>
      cases second with
      | filled rightFree =>
          rcases Draft.has_add_eq_false_iff.mp rightFree with ⟨rightFree, different⟩
          rw [draft.add_comm different]
          exact ⟨_, .filled rightFree,
            .filled (Draft.has_add_eq_false_iff.mpr ⟨leftFree, different.symm⟩)⟩
  | finished =>
      cases second with
      | finished => exact ⟨_, .finished, .finished⟩

/-- One item of a record, whatever it says. -/
def IsItem (tokens : List Token) : Prop :=
  ∃ content, DerivesItem tokens content

/-- Items are exchanged, or refused in either order as two of one kind. -/
theorem IsItem.readAlike_swap {left right : List Token} (leftItem : IsItem left)
    (rightItem : IsItem right) : ReadAlike (left ++ right) (right ++ left) := by
  rcases leftItem with ⟨leftContent, leftDerived⟩
  rcases rightItem with ⟨rightContent, rightDerived⟩
  intro state next
  simp only [State.run_append_eq_ok_iff, leftDerived.run_eq_ok_iff, rightDerived.run_eq_ok_iff]
  constructor
  · rintro ⟨_, first, second⟩
    exact first.swap second
  · rintro ⟨_, first, second⟩
    exact first.swap second

/-- Items are read alike in every order. -/
theorem readAlike_flatten_of_perm {left right : List (List Token)} (perm : left.Perm right)
    (items : ∀ item ∈ left, IsItem item) : ReadAlike left.flatten right.flatten := by
  induction perm with
  | nil => exact .refl []
  | cons item _ ih =>
      rw [List.forall_mem_cons] at items
      exact (ReadAlike.refl item).append (ih items.2)
  | swap first second rest =>
      simp only [List.forall_mem_cons] at items
      have swapped := (items.1.readAlike_swap items.2.1).append (.refl rest.flatten)
      simpa only [List.flatten_cons, List.append_assoc] using swapped
  | trans leftPerm _ leftIh rightIh =>
      have middleItems := fun item member => items item (leftPerm.mem_iff.mpr member)
      exact (leftIh items).trans (rightIh middleItems)

/-! ## Items with one effect -/

/-- Items of one kind that do the same to every draft. -/
structure ItemContent.SameEffect (left right : ItemContent) : Prop where
  kind : left.item = right.item
  add : ∀ draft : Draft, draft.add left = draft.add right

namespace ItemContent

variable {left right : ItemContent}

theorem SameEffect.refl (content : ItemContent) : content.SameEffect content :=
  ⟨rfl, fun _ => rfl⟩

theorem SameEffect.symm (same : left.SameEffect right) : right.SameEffect left :=
  ⟨same.kind.symm, fun draft => (same.add draft).symm⟩

theorem Advances.of_sameEffect {state next : State} (advances : left.Advances state next)
    (same : left.SameEffect right) : right.Advances state next := by
  cases advances with
  | filled free =>
      rw [same.kind] at free
      rw [same.add]
      exact .filled free
  | finished => exact .finished

end ItemContent

theorem readAlike_of_sameEffect {left right : List Token} {leftContent rightContent : ItemContent}
    (leftDerived : DerivesItem left leftContent) (rightDerived : DerivesItem right rightContent)
    (same : leftContent.SameEffect rightContent) : ReadAlike left right := by
  intro state next
  rw [leftDerived.run_eq_ok_iff, rightDerived.run_eq_ok_iff]
  exact ⟨fun advances => advances.of_sameEffect same,
    fun advances => advances.of_sameEffect same.symm⟩

end Fieldmap.Spec
