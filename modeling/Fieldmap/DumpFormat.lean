import Fieldmap.Overrides
import Fieldmap.Record.Basic
import Fieldmap.Text.Blank
import Fieldmap.Text.Identifier

/-!
# Dump formats

A dump format is the text that a program gives to its print function to write a
report: entries of a quoted key, a colon and a conversion, separated by commas and
ended by a closing brace. It tells the names and types of the report's fields.

Entries are cut at every comma. A comma within a quoted value is not understood.
-/

namespace Fieldmap

open Text

/-- Why a dump format is refused. -/
inductive FormatFault where
  | unterminated (format : String)
  | emptyEntry (format : String)
  | missingColon (entry : String)
  | emptyName (entry : String)
  | invalidName (name : String)
  | unknownSpecifier (unknown : UnknownSpecifier)
  deriving DecidableEq, Repr

/-- The wording of a fault in a dump format. -/
def FormatFault.message : FormatFault → String
  | unterminated format => "Missing terminating \x7d in " ++ quote format
  | emptyEntry format => "Empty field entry in " ++ quote format
  | missingColon entry => "Field entry " ++ quote entry ++ " has no ':'"
  | emptyName entry => "Field entry " ++ quote entry ++ " has an empty name"
  | invalidName name => "Field name " ++ quote name ++ " is not an identifier"
  | unknownSpecifier unknown => unknown.message

namespace DumpFormat

/-- A text without one given character at its front. -/
def withoutFirst (c : Char) (text : List Char) : List Char :=
  if text.head? = some c then text.tail else text

/-- A text without one given character at its end. -/
def withoutLast (c : Char) (text : List Char) : List Char :=
  if text.getLast? = some c then text.dropLast else text

/-- The field of one entry of the format `whole`. The entry's last character tells
its conversion, and what stands before the first colon is its key. -/
def field (overrides : Overrides) (whole : List Char) (entry : List Char) :
    Traced FormatFault Field := do
  let entry := trim entry
  match entry.getLast? with
  | none => .fail (.emptyEntry (String.ofList whole))
  | some specifier =>
      if ':' ∈ entry then
        let key := entry.takeWhile (· != ':')
        let name := withoutLast '"' (withoutFirst '"' key)
        if name = [] then .fail (.emptyName (String.ofList entry))
        else if isIdentifier name then do
          let name := String.ofList name
          let type ← (overrides.resolve name specifier).mapError .unknownSpecifier
          return ⟨name, .nowhere, type, type.defaultLiteral?⟩
        else .fail (.invalidName (String.ofList name))
      else .fail (.missingColon (String.ofList entry))

/-- The fields of some entries. -/
def fieldsOf (overrides : Overrides) (whole : List Char) :
    List (List Char) → Traced FormatFault (List Field)
  | [] => return []
  | entry :: rest => do
      let first ← field overrides whole entry
      let others ← fieldsOf overrides whole rest
      return first :: others

/-- The entries of a format without blanks at its ends. The closing brace is required,
the opening one may be left out. -/
def entries? (whole : List Char) : Option (List (List Char)) :=
  if whole.getLast? = some '\x7d' then
    some ((withoutFirst '\x7b' whole.dropLast).splitOn ',')
  else none

/-- The fields of a dump format. -/
def fields (overrides : Overrides) (format : String) : Traced FormatFault (List Field) := do
  let whole := trim format.toList
  match entries? whole with
  | none => .fail (.unterminated (String.ofList whole))
  | some entries => do
      let fields ← fieldsOf overrides whole entries
      Traced.report (.formatCompiled fields.length)
      return fields

end DumpFormat

end Fieldmap
