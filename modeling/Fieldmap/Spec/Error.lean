import Fieldmap.Text.Literal
import Fieldmap.Text.Quoted
import Fieldmap.Token.Mark

/-!
# Errors in a specification

A specification is refused at a position, for one cause. Every text that a message
quotes is escaped, so that a message stays on one line.
-/

namespace Fieldmap.Spec

open Text

/-- What a specification must continue with. -/
inductive Expectation where
  | identifier
  | string
  | structName
  | fieldName
  | fieldType
  | defaultValue
  | mark (mark : Mark)
  deriving DecidableEq, Repr

/-- The wording of an expectation. -/
def Expectation.describe : Expectation → String
  | .identifier => "identifier"
  | .string => "string"
  | .structName => "structure name"
  | .fieldName => "field name"
  | .fieldType => "field type"
  | .defaultValue => "default value"
  | .mark expected => "\"" ++ String.singleton expected.char ++ "\""

/-- Why a specification is refused. -/
inductive Fault where
  /-- No lexeme starts at a stretch of text. -/
  | unlexable (stretch : String)
  /-- Neither a record nor an item nor the end of one stands here. -/
  | unexpected (found : String)
  /-- Something definite had to stand here. -/
  | expected (what : Expectation) (found : String)
  /-- A record has an item of one kind already. -/
  | duplicateItem (keyword : String)
  /-- A quoted text is no literal. -/
  | invalidLiteral (literal : String) (error : Literal.Error)
  /-- A field's type is no type keyword. -/
  | unknownType (name : String)
  /-- A record ends without a structure. -/
  | missingStruct (record : String)
  /-- A record ends without fields. -/
  | missingFieldmap (record : String)
  deriving DecidableEq, Repr

/-- The wording of a fault. -/
def Fault.message : Fault → String
  | unlexable stretch => "Syntax error: " ++ quote stretch
  | unexpected found => "Unexpected token " ++ quote found
  | expected what found => "Expected " ++ what.describe ++ " but found " ++ quote found
  | duplicateItem keyword => "Duplicate " ++ quote keyword ++ " item"
  | invalidLiteral literal error => "Invalid string literal " ++ literal ++ ": " ++ error.message
  | unknownType name => "Unknown field type " ++ quote name
  | missingStruct record => "Record " ++ quote record ++ " has no struct item"
  | missingFieldmap record => "Record " ++ quote record ++ " has no fieldmap"

/-- A fault and where it shows. -/
structure Error where
  position : Position
  fault : Fault
  deriving DecidableEq, Repr

/-- A message with the position it belongs to. -/
def locate (position : Position) (message : String) : String :=
  s!"Parse error at line {position.line}, column {position.column}: " ++ message

/-- The wording of an error. -/
def Error.message (error : Error) : String :=
  locate error.position error.fault.message

end Fieldmap.Spec
