/-!
# Identifiers

Tables, fields and bare defaults are named by identifiers: an ASCII letter or an
underscore, then ASCII letters, digits and underscores.
-/

namespace Fieldmap.Text

/-- A character that may begin an identifier. -/
def isIdentifierStart (c : Char) : Bool :=
  c.isAlpha || c == '_'

/-- A character that may continue an identifier. -/
def isIdentifierRest (c : Char) : Bool :=
  c.isAlphanum || c == '_'

theorem isIdentifierRest_of_isIdentifierStart {c : Char}
    (start : isIdentifierStart c = true) : isIdentifierRest c = true := by
  simp only [isIdentifierStart, isIdentifierRest, Char.isAlphanum, Bool.or_eq_true] at start ⊢
  exact start.imp_left Or.inl

/-- A whole text that is one identifier. -/
def isIdentifier : List Char → Bool
  | [] => false
  | first :: rest => isIdentifierStart first && rest.all isIdentifierRest

end Fieldmap.Text
