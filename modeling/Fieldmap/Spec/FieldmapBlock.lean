import Fieldmap.Record.Basic
import Fieldmap.Spec.Reader
import Fieldmap.Text.Layout

/-!
# Fieldmap blocks

Fields are written as the fieldmap of a record, one entry a line, in the notation
that the reader of specifications takes. Defaults are copied as they stand.
-/

namespace Fieldmap.Spec

open Text

/-- The width that names and types are padded to. -/
def entryColumn : Nat := 14

/-- The entry of a field. -/
def entryLine (field : Field) : String :=
  "        (" ++ field.name ++ "," ++ pad field.name entryColumn ++
    field.type.name ++ "," ++ pad field.type.name entryColumn ++
    field.default.getD absentDefault ++ "),"

/-- The fieldmap block of some fields. -/
def fieldmapBlock (fields : List Field) : String :=
  unlines ("    fieldmap (" :: fields.map entryLine ++ ["    )"])

end Fieldmap.Spec
