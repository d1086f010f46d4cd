import Fieldmap.Json
import Fieldmap.Record.Basic

/-!
# Record dumps

Records are dumped as JSON with everything that they hold, positions included.
-/

namespace Fieldmap

/-- The dump of a field. -/
def Field.toJson (field : Field) : Json :=
  .object [
    ("name", .text field.name),
    ("line", .number field.position.line),
    ("column", .number field.position.column),
    ("type_", .text field.type.name),
    ("default", .ofOption field.default)]

/-- The dump of a record. -/
def Record.toJson (record : Record) : Json :=
  .object [
    ("init_name", .text record.name),
    ("line", .number record.position.line),
    ("column", .number record.position.column),
    ("header", .ofOption record.header),
    ("struct_name", .text record.structName),
    ("fields", .list (record.fields.map Field.toJson)),
    ("string_buffered", .list (record.buffered.names.map .text))]

/-- The dump of records. -/
def dumpRecords (records : List Record) : String :=
  (Json.list (records.map Record.toJson)).render

end Fieldmap
