import Fieldmap.Record.Basic
import Fieldmap.Text.Layout
import Fieldmap.Text.Quoted
import Fieldmap.Traced

/-!
# Attribute tables

The table of a record is a constant array in C. Each field takes two lines: one with
its name, type and storage, and one with its default, or with its capacity if it is
a string. Names and types are padded so that the storage clauses line up; a name
wider than its column is reported.
-/

namespace Fieldmap

open Text

/-- The width that names are padded to. -/
def nameColumn : Nat := 12

/-- The width that types are padded to. -/
def typeColumn : Nat := 10

/-- How far the second line of a field is indented. -/
def clauseIndent : Nat := 35

/-- A field that needs a default and has none. -/
structure MissingDefault where
  type : FieldType
  field : String
  table : String
  deriving DecidableEq, Repr

/-- The wording of a missing default. -/
def MissingDefault.message (missing : MissingDefault) : String :=
  "No default for " ++ missing.type.name ++ " field " ++ quote missing.field ++ " in " ++
    quote missing.table

namespace Record

/-- The line with a field's name, type and storage. A string's storage is a buffer
already, any other needs its address taken. -/
def storageLine (record : Record) (field : Field) : String :=
  "\t\x7b\"" ++ field.name ++ "\"," ++ pad field.name nameColumn ++
    field.type.name ++ "," ++ pad field.type.name typeColumn ++
    ".addr." ++ field.type.name ++ " = " ++
    (if field.type = .string then "" else "&") ++ record.target field ++ ","

/-- The clause with a field's default or capacity. -/
def clause (record : Record) (field : Field) : Except MissingDefault String :=
  if field.type = .string then .ok (".maxlen = sizeof(" ++ record.target field ++ ")\x7d,")
  else
    match field.default with
    | none => .error ⟨field.type, field.name, record.name⟩
    | some value => .ok (".dflt." ++ field.type.name ++ " = " ++ value ++ "\x7d,")

/-- The two lines of a field. -/
def fieldLines (record : Record) (field : Field) : Traced MissingDefault (List String) := do
  if nameColumn < field.name.utf8ByteSize then
    Traced.report (.wideName record.name field.name)
  let clause ← Traced.ofExcept (record.clause field)
  return [record.storageLine field, spaces clauseIndent ++ clause]

/-- The lines of some fields. -/
def fieldsLines (record : Record) : List Field → Traced MissingDefault (List String)
  | [] => return []
  | field :: rest => do
      let lines ← record.fieldLines field
      let others ← record.fieldsLines rest
      return lines ++ others

/-- The lines of a table around those of its fields. -/
def tableLines (record : Record) (fields : List String) : List String :=
  ("    const struct json_attr_t " ++ record.name ++ "[] = \x7b") :: record.header.toList ++
    fields ++ ["\t\x7bNULL\x7d,", "    \x7d;", ""]

/-- The table of a record. -/
def table (record : Record) : Traced MissingDefault String := do
  let lines ← record.fieldsLines record.fields
  Traced.report (.tableGenerated record.name record.fields.length)
  return unlines (record.tableLines lines)

end Record

/-- The tables of records, one behind the other. -/
def tables : List Record → Traced MissingDefault String
  | [] => return ""
  | record :: rest => do
      let first ← record.table
      let others ← tables rest
      return first ++ others

end Fieldmap
