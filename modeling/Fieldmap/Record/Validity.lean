import Fieldmap.Record.Basic
import Fieldmap.Text.Blank
import Fieldmap.Text.Identifier
import Fieldmap.Text.Quoted

/-!
# Valid records

A record is valid when its table and fields are named properly, each field has a
default exactly if its type takes one, and only string fields are buffered. Records
are valid together when their tables have different names.

Validity is checked by listing every violation in order; the first one is reported.
-/

namespace Fieldmap

open Text

/-- A rule that a record breaks. -/
inductive Violation where
  | duplicateTable (table : String)
  | invalidTableName (table : String)
  | emptyFieldName (table : String)
  | duplicateField (field table : String)
  | stringDefault (field value : String)
  | blankDefault (type : FieldType) (field : String)
  | missingDefault (type : FieldType) (field : String)
  | unknownBuffered (field table : String)
  | bufferedType (field : String) (type : FieldType)
  deriving DecidableEq, Repr

/-- The wording of a violation. -/
def Violation.message : Violation → String
  | duplicateTable table => "The table " ++ quote table ++ " is defined twice"
  | invalidTableName table => "The table name " ++ quote table ++ " is not a valid identifier"
  | emptyFieldName table => "Empty field name in " ++ quote table
  | duplicateField field table =>
      "The field " ++ quote field ++ " is defined twice in " ++ quote table
  | stringDefault field value =>
      "The string field " ++ quote field ++ " cannot have default " ++ quote value
  | blankDefault type field =>
      "The " ++ type.name ++ " field " ++ quote field ++ " has an empty default"
  | missingDefault type field =>
      "The " ++ type.name ++ " field " ++ quote field ++ " has no default"
  | unknownBuffered field table =>
      "The buffered field " ++ quote field ++ " is not in " ++ quote table
  | bufferedType field type =>
      "The buffered field " ++ quote field ++ " is " ++ type.name ++ ", not string"

/-- What is wrong with the names of fields, given the names before them. -/
def fieldNameViolations (table : String) (seen : List String) : List Field → List Violation
  | [] => []
  | field :: rest =>
      (if field.name = "" then [.emptyFieldName table]
        else if field.name ∈ seen then [.duplicateField field.name table]
        else []) ++
      fieldNameViolations table (field.name :: seen) rest

/-- What is wrong with the default of a field. -/
def Field.defaultViolation? (field : Field) : Option Violation :=
  match field.type, field.default with
  | .string, none => none
  | .string, some value => some (.stringDefault field.name value)
  | type, none => some (.missingDefault type field.name)
  | type, some value =>
      if trim value.toList = [] then some (.blankDefault type field.name) else none

namespace Record

/-- What is wrong with a buffered name. -/
def bufferedViolation? (record : Record) (name : String) : Option Violation :=
  match record.fields.find? fun field => field.name == name with
  | none => some (.unknownBuffered name record.name)
  | some field =>
      if field.type = .string then none else some (.bufferedType name field.type)

/-- Everything that is wrong with a record: its name, the names of its fields, their
defaults, and its buffered names. -/
def violations (record : Record) : List Violation :=
  (if isIdentifier record.name.toList then [] else [.invalidTableName record.name]) ++
  fieldNameViolations record.name [] record.fields ++
  record.fields.filterMap Field.defaultViolation? ++
  record.buffered.names.filterMap record.bufferedViolation?

end Record

/-- Everything that is wrong with records, given the names of the tables before. -/
def tableViolations (seen : List String) : List Record → List Violation
  | [] => []
  | record :: rest =>
      (if record.name ∈ seen then [.duplicateTable record.name] else []) ++
      record.violations ++
      tableViolations (record.name :: seen) rest

/-- Refuse for the first of some violations. -/
def refuseFirst : List Violation → Except Violation Unit
  | [] => .ok ()
  | violation :: _ => .error violation

/-- Check one record. -/
def Record.check (record : Record) : Except Violation Unit :=
  refuseFirst record.violations

/-- Check records together. -/
def checkRecords (records : List Record) : Except Violation Unit :=
  refuseFirst (tableViolations [] records)

end Fieldmap
