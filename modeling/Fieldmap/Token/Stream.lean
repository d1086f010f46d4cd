import Fieldmap.Spec.Error
import Fieldmap.Token.Basic
import Fieldmap.Token.Lexeme

/-!
# Token streams

The tokens of a text are its lexemes other than comments and blanks, each with the
position of its first character. One empty token marks the end.
-/

namespace Fieldmap

open Text

/-- The tokens among lexemes that stand one behind the other from a position. -/
def placedTokens (position : Position) : List Lexeme → List Token
  | [] => [⟨"", position⟩]
  | lexeme :: rest =>
      if lexeme.isToken then
        ⟨String.ofList lexeme.text, position⟩ ::
          placedTokens (position.after lexeme.text) rest
      else placedTokens (position.after lexeme.text) rest

/-- There is always the token that marks the end. -/
theorem placedTokens_ne_nil (position : Position) (lexemes : List Lexeme) :
    placedTokens position lexemes ≠ [] := by
  induction lexemes generalizing position with
  | nil => exact List.cons_ne_nil _ _
  | cons lexeme rest ih =>
      rw [placedTokens]
      split
      · exact List.cons_ne_nil _ _
      · exact ih _

/-- The characters of all lexemes in order. -/
def Lexemes.chars (cut : Lexemes) : List Char :=
  cut.lexemes.flatMap Lexeme.text

/-- The tokens of a text. A stretch without a lexeme refuses the text. -/
def Token.ofText (text : String) : Except Spec.Error (List Token) :=
  let cut := Lexemes.ofChars none text.toList
  if cut.stuck.isEmpty then .ok (placedTokens .start cut.lexemes)
  else .error ⟨Position.start.after cut.chars, .unlexable (String.ofList cut.stuck)⟩

end Fieldmap
