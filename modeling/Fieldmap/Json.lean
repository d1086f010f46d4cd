import Fieldmap.Text.Quoted

/-!
# JSON values

The part of JSON that dumps need: numbers are natural. A value is written over
several lines, each member and item on its own line and two blanks further in than
the value that holds it.
-/

namespace Fieldmap

open Text

/-- A JSON value. -/
inductive Json where
  | null
  | number (value : Nat)
  | text (value : String)
  | list (items : List Json)
  | object (members : List (String × Json))
  deriving Repr

namespace Json

/-- A text, or null where there is none. -/
def ofOption : Option String → Json
  | none => null
  | some value => text value

/-- A new line at a depth of nesting. -/
def newLine (depth : Nat) : List Char :=
  '\n' :: List.replicate (2 * depth) ' '

mutual

/-- The written form of a value at a depth of nesting. -/
def chars (depth : Nat) : Json → List Char
  | null => ['n', 'u', 'l', 'l']
  | number value => Nat.toDigits 10 value
  | text value => quoteChars value.toList
  | list [] => ['[', ']']
  | list (first :: rest) =>
      '[' :: newLine (depth + 1) ++ chars (depth + 1) first ++ itemsChars (depth + 1) rest ++
        newLine depth ++ [']']
  | object [] => ['\x7b', '\x7d']
  | object ((key, first) :: rest) =>
      '\x7b' :: newLine (depth + 1) ++ quoteChars key.toList ++ [':', ' '] ++
        chars (depth + 1) first ++ membersChars (depth + 1) rest ++ newLine depth ++ ['\x7d']

/-- The written form of the items behind the first. -/
def itemsChars (depth : Nat) : List Json → List Char
  | [] => []
  | item :: rest => ',' :: newLine depth ++ chars depth item ++ itemsChars depth rest

/-- The written form of the members behind the first. -/
def membersChars (depth : Nat) : List (String × Json) → List Char
  | [] => []
  | (key, value) :: rest =>
      ',' :: newLine depth ++ quoteChars key.toList ++ [':', ' '] ++ chars depth value ++
        membersChars depth rest

end

/-- The written form of a value. -/
def render (value : Json) : String :=
  String.ofList (chars 0 value)

end Json

end Fieldmap
