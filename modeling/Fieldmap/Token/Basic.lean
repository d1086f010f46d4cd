import Fieldmap.Text.Identifier
import Fieldmap.Text.Number
import Fieldmap.Text.Position
import Fieldmap.Token.Mark

/-!
# Tokens

A token is a text and its position. The reader of specifications asks only for the
class of a token's text: an identifier, a number, a quoted text, a mark, or the
empty text that ends a specification. Any other text belongs to no class.
-/

namespace Fieldmap

open Text

/-- A text and where it stands. -/
structure Token where
  text : String
  position : Position
  deriving DecidableEq, Repr

/-- What a token can be taken for. -/
inductive TokenClass where
  | identifier
  | number
  | quoted
  | mark (mark : Mark)
  | endOfText
  deriving DecidableEq, Repr

/-- A text between double quotes on one line. What stands between them is checked
when it is read as a literal. -/
def isQuoted (text : List Char) : Bool :=
  match text with
  | '"' :: rest => rest.getLast? == some '"' && rest.all (· != '\n')
  | _ => false

/-- Whether a text belongs to a class. -/
def TokenClass.accepts (text : List Char) : TokenClass → Bool
  | .identifier => isIdentifier text
  | .number => isNumber text
  | .quoted => isQuoted text
  | .mark expected => text == [expected.char]
  | .endOfText => text == []

namespace Token

/-- Whether a token can be taken for a class. -/
def is (token : Token) (tokenClass : TokenClass) : Bool :=
  tokenClass.accepts token.text.toList

/-- Whether a token is a keyword. -/
def isWord (token : Token) (word : String) : Bool :=
  token.text == word

end Token

end Fieldmap
