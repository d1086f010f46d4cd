import Fieldmap.FieldType
import Fieldmap.Text.Quoted
import Fieldmap.Traced

/-!
# Type overrides

The type of a dumped field follows from its conversion, unless an override forces
another type on the field's name. Of several overrides of one name the newest holds.
-/

namespace Fieldmap

/-- Types forced on names, the newest first. -/
structure Overrides where
  entries : List (String × FieldType)
  deriving DecidableEq, Repr

namespace Overrides

/-- No overrides. -/
def empty : Overrides := ⟨[]⟩

/-- The type forced on a name. -/
def find? (overrides : Overrides) (name : String) : Option FieldType :=
  overrides.entries.lookup name

/-- Force a type on a name. -/
def insert (overrides : Overrides) (name : String) (type : FieldType) : Overrides :=
  ⟨(name, type) :: overrides.entries⟩

/-- Force further types, one after the other. -/
def insertAll (overrides : Overrides) (entries : List (String × FieldType)) : Overrides :=
  entries.foldl (fun overrides entry => overrides.insert entry.1 entry.2) overrides

/-- Overrides given one after the other. -/
def ofList (entries : List (String × FieldType)) : Overrides :=
  empty.insertAll entries

@[simp] theorem find?_empty (name : String) : empty.find? name = none := rfl

@[simp] theorem find?_insert (overrides : Overrides) (name other : String) (type : FieldType) :
    (overrides.insert name type).find? other =
      if other = name then some type else overrides.find? other := by
  simp only [find?, insert, List.lookup_cons]
  split <;> simp_all

/-- Flags that dumps print as numbers. -/
def usual : List (String × FieldType) :=
  [("raim", .boolean), ("accuracy", .boolean)]

/-- The overrides that hold unless others are given. -/
def default : Overrides := ofList usual

end Overrides

/-- A conversion that stands for no type. -/
structure UnknownSpecifier where
  specifier : Char
  field : String
  deriving DecidableEq, Repr

/-- The wording of an unknown conversion. -/
def UnknownSpecifier.message (unknown : UnknownSpecifier) : String :=
  "Unrecognized conversion specifier " ++ Text.quote (String.singleton unknown.specifier) ++
    " for field " ++ Text.quote unknown.field

/-- The type of a field dumped with a conversion. The conversion must be known even
where an override decides. -/
def Overrides.resolve (overrides : Overrides) (field : String) (specifier : Char) :
    Traced UnknownSpecifier FieldType :=
  match FieldType.ofSpecifier? specifier with
  | none => .fail ⟨specifier, field⟩
  | some dumped =>
      match overrides.find? field with
      | none => return dumped
      | some forced => do
          if forced ≠ dumped then Traced.report (.typeOverridden field dumped forced)
          return forced

end Fieldmap
