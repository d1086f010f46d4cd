/-!
# Field types

The type of a field says how its value is read from a message and which member of
the generated attribute holds it.
-/

namespace Fieldmap

/-- The type a field's value is read as. -/
inductive FieldType where
  | integer
  | uinteger
  | real
  | string
  | boolean
  deriving DecidableEq, Repr

namespace FieldType

/-- All types, in the order in which they are listed. -/
def all : List FieldType := [integer, uinteger, real, string, boolean]

theorem mem_all (type : FieldType) : type ∈ all := by
  cases type <;> decide

/-- The keyword of a type. -/
def name : FieldType → String
  | integer => "integer"
  | uinteger => "uinteger"
  | real => "real"
  | string => "string"
  | boolean => "boolean"

/-- The type with a given keyword. -/
def ofName? (name : String) : Option FieldType :=
  all.find? fun type => type.name == name

@[simp] theorem ofName?_name (type : FieldType) : ofName? type.name = some type := by
  cases type <;> decide

theorem ofName?_eq_some_iff {name : String} {type : FieldType} :
    ofName? name = some type ↔ type.name = name := by
  constructor
  · intro found
    simpa using List.find?_some found
  · rintro rfl
    exact ofName?_name type

/-- Types differ in their keywords. -/
theorem name_inj {left right : FieldType} (same : left.name = right.name) : left = right := by
  have found := ofName?_name left
  rw [same, ofName?_name] at found
  exact (Option.some.inj found).symm

/-- The type that the last character of a dump conversion stands for. A quoted
conversion ends in its closing quote. -/
def ofSpecifier? (specifier : Char) : Option FieldType :=
  if specifier = 'd' then some integer
  else if specifier = 'u' then some uinteger
  else if specifier = 'f' then some real
  else if specifier = '"' then some string
  else none

/-- The usual default of a type. Strings have a capacity and no default. -/
def defaultLiteral? : FieldType → Option String
  | integer => some "0"
  | uinteger => some "0"
  | real => some "0.0"
  | string => none
  | boolean => some "false"

end FieldType

end Fieldmap
