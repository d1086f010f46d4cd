import Fieldmap.FieldType
import Fieldmap.NameSet
import Fieldmap.Text.Position

/-!
# Records

A record describes one attribute table: its name, an optional line of text to open
it with, the structure that holds the values, and the fields in order. The values
of buffered fields are kept in variables of their own instead of the structure.
-/

namespace Fieldmap

open Text (Position)

/-- One field of a record. -/
structure Field where
  name : String
  position : Position
  type : FieldType
  /-- The initial value, as it is copied into the table. -/
  default : Option String
  deriving DecidableEq, Repr

/-- One record. -/
structure Record where
  name : String
  position : Position
  header : Option String
  structName : String
  fields : List Field
  /-- The fields kept in variables of their own. -/
  buffered : NameSet
  deriving DecidableEq

/-- The expression that names the storage of a field. -/
def Record.target (record : Record) (field : Field) : String :=
  if field.name ∈ record.buffered then field.name
  else record.structName ++ "." ++ field.name

end Fieldmap
