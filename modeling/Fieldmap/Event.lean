import Fieldmap.FieldType

/-!
# Events

What the library reports while it works, apart from its results. An event has a
level, a message and named values.
-/

namespace Fieldmap

/-- Something worth reporting. -/
inductive Event where
  /-- A specification was read and found valid. -/
  | specCompiled (records : Nat)
  /-- A dump format was read. -/
  | formatCompiled (fields : Nat)
  /-- An override gave a field another type than its conversion. -/
  | typeOverridden (field : String) (dumped forced : FieldType)
  /-- A field's name does not fit the name column of its table. -/
  | wideName (table field : String)
  /-- A table was generated. -/
  | tableGenerated (table : String) (fields : Nat)
  deriving DecidableEq, Repr

/-- How much an event matters. -/
inductive Level where
  | debug
  | warn
  deriving DecidableEq, Repr

/-- The name of a level. -/
def Level.name : Level → String
  | debug => "DEBUG"
  | warn => "WARN"

namespace Event

/-- The level of an event. Only a table that will not align is a warning. -/
def level : Event → Level
  | wideName .. => .warn
  | _ => .debug

/-- The message of an event. -/
def message : Event → String
  | specCompiled .. => "compiled fieldmap specs"
  | formatCompiled .. => "compiled format string"
  | typeOverridden .. => "type overridden"
  | wideName .. => "field name is wider than the name column; entry will not align"
  | tableGenerated .. => "generated attribute table"

/-- The named values of an event, as texts. -/
def values : Event → List (String × String)
  | specCompiled records => [("records", toString records)]
  | formatCompiled fields => [("fields", toString fields)]
  | typeOverridden field dumped forced =>
      [("field", field), ("from", dumped.name), ("to", forced.name)]
  | wideName table field => [("table", table), ("field", field)]
  | tableGenerated table fields => [("table", table), ("fields", toString fields)]

end Event

end Fieldmap
