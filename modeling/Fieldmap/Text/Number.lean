import Fieldmap.Text.WordChar

/-!
# Numbers

A number is an optional minus sign, a decimal digit, and then any word characters
and points. Its value is never computed: it is copied as it stands.
-/

namespace Fieldmap.Text

/-- A character that may follow the first digit of a number. -/
def isNumberRest (c : Char) : Bool :=
  isWordChar c || c == '.'

/-- A whole text that is one number without a sign. -/
def isUnsignedNumber : List Char → Bool
  | [] => false
  | first :: rest => isDecimalDigit first && rest.all isNumberRest

/-- A whole text that is one number. -/
def isNumber : List Char → Bool
  | '-' :: digits => isUnsignedNumber digits
  | text => isUnsignedNumber text

end Fieldmap.Text
