import Fieldmap.Proofs.Grammar.Draft
import Fieldmap.Spec.Reader
import Fieldmap.Traced

/-!
# What the reader refuses

The reader stops at the first token that leads to no phase. There are four reasons why a
token does not, and one more reason why a closing brace completes no record. All that is
said of the errors of the reader follows from these reasons.
-/

namespace Fieldmap.Spec

open Text (Literal.read)

/-! ## One token -/

/-- Why a phase refuses a token. -/
inductive Phase.Refuses (phase : Phase) (token : Token) : Fault → Prop where
  /-- The token is of no class that the phase can use. -/
  | unusable : phase.Refuses token (phase.refusal token.text)
  | duplicate {draft : Draft} {item : Item} : phase = .body draft →
      token.isWord item.keyword → draft.has item →
      phase.Refuses token (.duplicateItem token.text)
  | literal {error : Text.Literal.Error} : token.is .quoted →
      Literal.read token.text = .error error →
      phase.Refuses token (.invalidLiteral token.text error)
  | unknownType : token.is .identifier → FieldType.ofName? token.text = none →
      phase.Refuses token (.unknownType token.text)

/-- A result that is an error only where a phase refuses a token. -/
def FailsAt {α : Type} (phase : Phase) (token : Token) (result : Except Error α) : Prop :=
  FailsWith (fun error => error.position = token.position ∧ phase.Refuses token error.fault) result

theorem Phase.failsAt_refuse {α : Type} (phase : Phase) (token : Token) :
    FailsAt phase token (phase.refuse token : Except Error α) :=
  .error ⟨rfl, .unusable⟩

theorem failsAt_literal (phase : Phase) {token : Token} (quoted : token.is .quoted) :
    FailsAt phase token (literal token) := by
  unfold literal
  split
  · exact .ok _
  · rename_i unread
    exact .error ⟨rfl, .literal quoted unread⟩

theorem Draft.failsAt_open (draft : Draft) {token : Token} {item : Item}
    (word : token.isWord item.keyword) :
    FailsAt (.body draft) token (draft.open token item) :=
  .ite (fun taken => .error ⟨rfl, .duplicate rfl word taken⟩) fun _ => .ok _

theorem failsAt_entryOrEnd (draft : Draft) (fields : List Field) (phase : Phase)
    (token : Token) : FailsAt phase token (entryOrEnd draft fields phase token) :=
  .ite (fun _ => .ok _) fun _ => .ite (fun _ => .ok _) fun _ => phase.failsAt_refuse token

theorem EntryPhase.failsAt_step (draft : Draft) (fields : List Field) (part : EntryPhase)
    (token : Token) :
    FailsAt (.entry draft fields part) token (part.step draft fields token) := by
  have refused : FailsAt (.entry draft fields part) token
      ((Phase.entry draft fields part).refuse token : Except Error Phase) :=
    Phase.failsAt_refuse _ token
  cases part with
  | name | nameEnd | typeEnd | close => exact .ite (fun _ => .ok _) fun _ => refused
  | type nameToken =>
      refine .ite (fun identifier => ?_) fun _ => refused
      split
      · exact .ok _
      · rename_i unknown
        exact .error ⟨rfl, .unknownType identifier unknown⟩
  | default nameToken fieldType =>
      refine .ite (fun _ => .ok _) fun _ => .ite (fun quoted => ?_) fun _ => refused
      exact .bind (failsAt_literal _ quoted) fun _ => .ok _

/-- A token that leads to no phase is refused, and the error stands at the token. -/
theorem Phase.failsAt_step (phase : Phase) (token : Token) :
    FailsAt phase token (phase.step token) := by
  have refused : FailsAt phase token (phase.refuse token : Except Error Phase) :=
    phase.failsAt_refuse token
  cases phase with
  | body draft =>
      simp only [Phase.step]
      split
      · rename_i item found
        exact draft.failsAt_open (Item.isWord_of_find? found)
      · exact refused
  | header =>
      refine .ite (fun quoted => ?_) fun _ => refused
      exact .bind (failsAt_literal _ quoted) fun _ => .ok _
  | struct =>
      refine .ite (fun quoted => ?_) fun _ => .ite (fun _ => .ok _) fun _ => refused
      exact .bind (failsAt_literal _ quoted) fun _ => .ok _
  | fieldmap draft fields => exact failsAt_entryOrEnd draft fields _ token
  | entry draft fields part => exact part.failsAt_step draft fields token
  | fieldmapNext draft fields =>
      exact .ite (fun _ => .ok _) fun _ => failsAt_entryOrEnd draft fields _ token
  | finished => exact .ok _
  | records | buffered | bufferedNext =>
      exact .ite (fun _ => .ok _) fun _ => .ite (fun _ => .ok _) fun _ => refused
  | recordName | bodyOpen | itemEnd | bufferedOpen | fieldmapOpen =>
      exact .ite (fun _ => .ok _) fun _ => refused

/-! ## The end of a record -/

/-- Why a draft becomes no record. -/
inductive Draft.Lacks (draft : Draft) : Fault → Prop where
  | struct : draft.structName = none → draft.Lacks (.missingStruct draft.name.text)
  | fieldmap : draft.fields = none → draft.Lacks (.missingFieldmap draft.name.text)

/-- A draft that becomes no record lacks an item, and the error stands at its name. -/
theorem Draft.failsWith_finish (draft : Draft) :
    FailsWith (fun error => error.position = draft.name.position ∧ draft.Lacks error.fault)
      draft.finish := by
  unfold finish
  split
  · rename_i missing
    exact .error ⟨rfl, .struct missing⟩
  · rename_i missing
    exact .error ⟨rfl, .fieldmap missing⟩
  · exact .ok _

/-! ## Lists of tokens -/

/-- A token is refused in its phase, or it closes a record that lacks an item. -/
theorem State.step_eq_error {state : State} {token : Token} {error : Error}
    (step : state.step token = .error error) :
    (∃ draft, state.phase = .body draft ∧ token.is (.mark .rightBrace) ∧
      error.position = draft.name.position ∧ draft.Lacks error.fault) ∨
    (error.position = token.position ∧ state.phase.Refuses token error.fault) := by
  have advance {phase : Phase}
      (advanced : (do return ⟨state.records, ← phase.step token⟩ : Except Error State) =
        .error error) : error.position = token.position ∧ phase.Refuses token error.fault := by
    rcases eq_error_of_bind_eq_error advanced with failed | ⟨_, _, goesOn⟩
    · exact phase.failsAt_step token error failed
    · cases goesOn
  unfold State.step at step
  split at step
  · rename_i draft inBody
    rw [inBody] at step ⊢
    split at step
    · rename_i closes
      rcases eq_error_of_bind_eq_error step with unfinished | ⟨_, _, goesOn⟩
      · have lacking := draft.failsWith_finish error unfinished
        exact .inl ⟨draft, rfl, closes, lacking.1, lacking.2⟩
      · cases goesOn
    · exact .inr (advance step)
  · exact .inr (advance step)

/-- A run fails at one token, behind tokens that it takes. -/
theorem State.run_eq_error {state : State} {tokens : List Token} {error : Error}
    (run : state.run tokens = .error error) :
    ∃ before token after reached, tokens = before ++ token :: after ∧
      state.run before = .ok reached ∧ reached.step token = .error error := by
  induction tokens generalizing state with
  | nil => cases run
  | cons token rest ih =>
      rw [State.run_cons] at run
      rcases eq_error_of_bind_eq_error run with refused | ⟨next, step, run⟩
      · exact ⟨[], token, rest, state, rfl, rfl, refused⟩
      · rcases ih run with ⟨before, failing, after, reached, rfl, taken, refused⟩
        refine ⟨token :: before, failing, after, reached, rfl, ?_, refused⟩
        rw [State.run_cons, step]
        exact taken

/-- Tokens are refused where reading them fails. Where they give out first, the last one
is refused in the phase that is reached. -/
theorem recordsOf_eq_error {tokens : List Token} {error : Error}
    (refused : recordsOf tokens = .error error) :
    State.initial.run tokens = .error error ∨
    ∃ last state, tokens.getLast? = some last ∧ State.initial.run tokens = .ok state ∧
      state.phase ≠ .finished ∧ error.position = last.position ∧
      state.phase.Refuses last error.fault := by
  unfold recordsOf at refused
  split at refused
  · cases refused
  · rename_i last isLast
    rcases eq_error_of_bind_eq_error refused with failed | ⟨state, run, refused⟩
    · exact .inl failed
    · split at refused
      · cases refused
      · rename_i unfinished
        rcases state.phase.failsAt_refuse last error refused with ⟨position, refuses⟩
        exact .inr ⟨last, state, isLast, run, unfinished, position, refuses⟩

end Fieldmap.Spec
