import Fieldmap.CommandLine.Program
import Fieldmap.Proofs.ErrorPlaces
import Fieldmap.Proofs.QuotedLiteral
import Fieldmap.Proofs.TableLines

/-!
# Errors on one line

A message shows names, defaults and stretches of text that may hold anything, also line
feeds, but it shows them escaped. Only a literal is shown as it stands. The reader takes
nothing for a literal that is not quoted on one line, so no message is ever broken.
-/

namespace Fieldmap

open Text

/-! ## Pieces of messages -/

namespace OneLine

/-- A text that can be taken for a literal is on one line. -/
theorem of_isQuoted {text : String} (quoted : isQuoted text.toList) : OneLine text := by
  intro member
  unfold isQuoted at quoted
  split at quoted
  · rename_i rest textEq
    simp only [Bool.and_eq_true, List.all_eq_true, bne_iff_ne] at quoted
    rw [textEq] at member
    rcases List.mem_cons.mp member with isQuote | inRest
    · exact absurd isQuote (by decide)
    · exact quoted.2 '\n' inRest rfl
  · cases quoted

theorem quote (text : String) : OneLine (quote text) := by
  apply of_isQuoted
  rw [toList_quote]
  exact isQuoted_quoteChars text.toList

theorem number (value : Nat) : OneLine (toString value) := by
  intro member
  rw [Nat.toString_eq_repr, Nat.toList_repr] at member
  have digit := Nat.isDigit_of_mem_toDigits (by decide) (by decide) member
  exact absurd digit (by decide)

end OneLine

/-! ## Messages -/

theorem Violation.oneLine_message (violation : Violation) : OneLine violation.message := by
  cases violation <;>
    unfold message <;>
    simp only [OneLine.append_iff, OneLine.quote, OneLine.typeName, and_true] <;>
    decide

theorem MissingDefault.oneLine_message (missing : MissingDefault) : OneLine missing.message := by
  unfold message
  simp only [OneLine.append_iff, OneLine.quote, OneLine.typeName, and_true]
  decide

theorem UnknownSpecifier.oneLine_message (unknown : UnknownSpecifier) :
    OneLine unknown.message := by
  unfold message
  simp only [OneLine.append_iff, OneLine.quote, and_true]
  decide

theorem FormatFault.oneLine_message (fault : FormatFault) : OneLine fault.message := by
  cases fault with
  | unknownSpecifier unknown => exact unknown.oneLine_message
  | _ =>
      unfold message
      simp only [OneLine.append_iff, OneLine.quote, and_true]
      decide

theorem Text.Literal.Error.oneLine_message (error : Literal.Error) : OneLine error.message := by
  have described : OneLine (toString error.fault.describe) := by
    cases error.fault <;> decide
  unfold message
  simp only [OneLine.append_iff, described, OneLine.number, true_and, and_true]
  decide

namespace Spec

theorem Expectation.oneLine_describe (what : Expectation) : OneLine what.describe := by
  cases what with
  | mark mark => cases mark <;> decide
  | _ => decide

/-- A fault is worded on one line if it shows what it names on one line. -/
theorem Fault.oneLine_message {fault : Fault} (shown : OneLine fault.shown) :
    OneLine fault.message := by
  cases fault with
  | expected what found =>
      unfold message
      simp only [OneLine.append_iff, OneLine.quote, what.oneLine_describe, and_true]
      decide
  | invalidLiteral literal error =>
      have literalLine : OneLine literal := shown
      unfold message
      simp only [OneLine.append_iff, literalLine, error.oneLine_message, and_true]
      decide
  | _ =>
      unfold message
      simp only [OneLine.append_iff, OneLine.quote, and_true]
      decide

theorem Error.oneLine_message {error : Error} (shown : OneLine error.fault.shown) :
    OneLine error.message := by
  unfold message locate
  simp only [OneLine.append_iff, OneLine.number, Fault.oneLine_message shown, and_true]
  decide

/-! ## What the reader reports -/

/-- Only a text that can be taken for a literal is shown as it stands. -/
theorem Phase.Refuses.oneLine_shown {phase : Phase} {token : Token} {fault : Fault}
    (refuses : phase.Refuses token fault) : OneLine fault.shown := by
  cases refuses with
  | unusable => cases phase <;> exact OneLine.quote _
  | literal quoted _ => exact OneLine.of_isQuoted quoted
  | duplicate | unknownType => exact OneLine.quote _

theorem Draft.Lacks.oneLine_shown {draft : Draft} {fault : Fault} (lacks : draft.Lacks fault) :
    OneLine fault.shown := by
  cases lacks <;> exact OneLine.quote _

/-- Whatever its tokens hold, a list of tokens is refused on one line. -/
theorem oneLine_of_recordsOf {tokens : List Token} {error : Error}
    (refused : recordsOf tokens = .error error) : OneLine error.message := by
  apply Error.oneLine_message
  rcases recordsOf_eq_error refused with failed | ⟨_, _, _, _, _, _, refuses⟩
  · rcases State.run_eq_error failed with ⟨_, _, _, _, _, _, step⟩
    rcases State.step_eq_error step with ⟨_, _, _, _, lacks⟩ | ⟨_, refuses⟩
    · exact lacks.oneLine_shown
    · exact refuses.oneLine_shown
  · exact refuses.oneLine_shown

/-- A text is only refused for a stretch without a lexeme, which is quoted. -/
theorem oneLine_of_ofText {text : String} {error : Error}
    (refused : Token.ofText text = .error error) : OneLine error.message := by
  rcases Token.exists_standsAt_of_error refused with ⟨stretch, faultEq, _⟩
  apply Error.oneLine_message
  rw [faultEq]
  exact OneLine.quote stretch

theorem oneLine_of_read {text : String} {error : Error} (refused : read text = .error error) :
    OneLine error.message := by
  rcases eq_error_of_bind_eq_error refused with stuck | ⟨_, _, refused⟩
  · exact oneLine_of_ofText stuck
  · exact oneLine_of_recordsOf refused

theorem oneLine_of_compile {text : String} {error : Fieldmap.Error}
    (refused : (compile text).outcome = .error error) : OneLine error.message := by
  rw [compile_outcome] at refused
  split at refused
  · rename_i found result
    cases refused
    exact oneLine_of_read result
  · split at refused
    · rename_i violation _
      cases refused
      exact OneLine.append_iff.mpr ⟨by decide, violation.oneLine_message⟩
    · cases refused

end Spec

/-! ## What the library reports -/

/-- An error that is reported on one line. -/
structure Error.OnOneLine (error : Error) : Prop where
  message : OneLine error.message
  diagnostic : (CommandLine.diagnostic error).toList.splitOn '\n' =
    [(CommandLine.diagnostic error).toList]

theorem Error.OnOneLine.of_message {error : Error} (message : OneLine error.message) :
    error.OnOneLine := by
  have line : OneLine (CommandLine.diagnostic error) :=
    OneLine.append_iff.mpr ⟨by decide, message⟩
  exact ⟨message, List.splitOn_eq_singleton line⟩

/-- Whatever text, tokens, records and overrides the library is given, an error that it
reports is worded on one line, and the line that reports it is one line. -/
theorem onOneLine_of_error :
    (∀ text error, Token.ofText text = .error error → (Error.spec error).OnOneLine) ∧
    (∀ tokens error, Spec.recordsOf tokens = .error error → (Error.spec error).OnOneLine) ∧
    (∀ text error, (Spec.compile text).outcome = .error error → error.OnOneLine) ∧
    (∀ records violation, checkRecords records = .error violation →
      (Error.violation violation).OnOneLine) ∧
    (∀ records missing, (tables records).outcome = .error missing →
      (Error.missingDefault missing).OnOneLine) ∧
    ∀ overrides format fault, (DumpFormat.fields overrides format).outcome = .error fault →
      (Error.format fault).OnOneLine := by
  refine ⟨?_, ?_, ?_, ?_, ?_, ?_⟩
  · intro text error refused
    exact .of_message (Spec.oneLine_of_ofText refused)
  · intro tokens error refused
    exact .of_message (Spec.oneLine_of_recordsOf refused)
  · intro text error refused
    exact .of_message (Spec.oneLine_of_compile refused)
  · intro _ violation _
    exact .of_message (OneLine.append_iff.mpr ⟨by decide, violation.oneLine_message⟩)
  · intro _ missing _
    exact .of_message (OneLine.append_iff.mpr ⟨by decide, missing.oneLine_message⟩)
  · intro _ _ fault _
    exact .of_message (OneLine.append_iff.mpr ⟨by decide, fault.oneLine_message⟩)

/-- The tokens of a record whose header would break a message: the text between its
quotes holds a line feed. -/
def brokenHeader : List Token := [
  ⟨"record", ⟨1, 1⟩⟩, ⟨"a", ⟨1, 8⟩⟩, ⟨"\x7b", ⟨1, 10⟩⟩, ⟨"header", ⟨1, 12⟩⟩,
  ⟨"\"\n\"", ⟨1, 19⟩⟩, ⟨";", ⟨2, 2⟩⟩]

theorem onOneLine_brokenHeader :
    Spec.recordsOf brokenHeader = .error ⟨⟨1, 19⟩, .expected .string "\"\n\""⟩ ∧
    (Error.spec ⟨⟨1, 19⟩, .expected .string "\"\n\""⟩).OnOneLine := by
  have refused : Spec.recordsOf brokenHeader =
      .error ⟨⟨1, 19⟩, .expected .string "\"\n\""⟩ := by
    rfl
  exact ⟨refused, onOneLine_of_error.2.1 brokenHeader _ refused⟩

end Fieldmap
