import Fieldmap.Text.Blank
import Fieldmap.Text.Identifier
import Fieldmap.Text.Number
import Fieldmap.Token.Mark

/-!
# Lexemes

A specification is cut into lexemes: quoted texts, numbers, marks, identifiers,
comments and runs of blanks. The first character of a lexeme settles its kind, and
a lexeme is as long as its kind allows.

Identifiers and unsigned numbers start at a word boundary, and identifiers end at
one. The character in front of a lexeme is therefore part of the question whether
one starts.
-/

namespace Fieldmap

open Text

/-- The kinds of lexemes. -/
inductive LexemeKind where
  | quoted
  | number
  | mark
  | identifier
  | comment
  | blank
  deriving DecidableEq, Repr

/-- A stretch of text of one kind. -/
structure Lexeme where
  kind : LexemeKind
  text : List Char
  deriving DecidableEq, Repr

namespace Lexeme

/-- Comments and blanks only separate tokens. -/
def isToken (lexeme : Lexeme) : Bool :=
  match lexeme.kind with
  | .comment | .blank => false
  | _ => true

/-- The rest of a quoted text, up to its closing quote, and what follows it. A
backslash keeps the next character from closing it, and no line feed may occur. -/
def closing? : List Char → Option (List Char × List Char)
  | [] => none
  | '"' :: rest => some (['"'], rest)
  | '\n' :: _ => none
  | '\\' :: [] => none
  | '\\' :: '\n' :: _ => none
  | '\\' :: c :: rest =>
      (closing? rest).map fun (inner, after) => ('\\' :: c :: inner, after)
  | c :: rest => (closing? rest).map fun (inner, after) => (c :: inner, after)

/-- A word boundary is missing where a word character stands on this side. -/
def touchesWord (neighbour : Option Char) : Bool :=
  neighbour.any isWordChar

/-- The lexeme at the head of a text, and what follows it. `before` is the character
in front of the text, if any. -/
def first? (before : Option Char) : List Char → Option (Lexeme × List Char)
  | [] => none
  | c :: rest =>
      if c = '"' then
        (closing? rest).map fun (inner, after) => (⟨.quoted, c :: inner⟩, after)
      else if c = '-' then
        if rest.head?.any isDecimalDigit then
          some (⟨.number, c :: rest.takeWhile isNumberRest⟩, rest.dropWhile isNumberRest)
        else none
      else if isDecimalDigit c then
        if touchesWord before then none
        else some (⟨.number, c :: rest.takeWhile isNumberRest⟩, rest.dropWhile isNumberRest)
      else if (Mark.ofChar? c).isSome then some (⟨.mark, [c]⟩, rest)
      else if isIdentifierStart c then
        if touchesWord before || touchesWord (rest.dropWhile isIdentifierRest).head? then none
        else some (⟨.identifier, c :: rest.takeWhile isIdentifierRest⟩,
          rest.dropWhile isIdentifierRest)
      else if c = '/' then
        if rest.head? = some '/' then
          some (⟨.comment, c :: rest.takeWhile (· != '\n')⟩, rest.dropWhile (· != '\n'))
        else none
      else if isBlank c then
        some (⟨.blank, c :: rest.takeWhile isBlank⟩, rest.dropWhile isBlank)
      else none

theorem closing?_append {text inner after : List Char}
    (closed : closing? text = some (inner, after)) : inner ++ after = text := by
  induction text using closing?.induct generalizing inner after with
  | case1 | case3 | case4 | case5 => simp [closing?] at closed
  | case2 rest =>
      simp only [closing?, Option.some.injEq, Prod.mk.injEq] at closed
      obtain ⟨rfl, rfl⟩ := closed
      rfl
  | case6 c rest _ ih =>
      simp only [closing?, Option.map_eq_some_iff, Prod.mk.injEq] at closed
      obtain ⟨⟨inner, after⟩, closed, rfl, rfl⟩ := closed
      simp [ih closed]
  | case7 c rest _ _ _ _ _ ih =>
      rw [closing?] at closed <;> try assumption
      simp only [Option.map_eq_some_iff, Prod.mk.injEq] at closed
      obtain ⟨⟨inner, after⟩, closed, rfl, rfl⟩ := closed
      simp [ih closed]

/-- A lexeme begins with the first character of the text, and nothing is lost. -/
theorem first?_append {before : Option Char} {c : Char} {rest after : List Char}
    {lexeme : Lexeme} (found : first? before (c :: rest) = some (lexeme, after)) :
    ∃ inner, lexeme.text = c :: inner ∧ inner ++ after = rest := by
  simp only [first?] at found
  split at found
  · simp only [Option.map_eq_some_iff, Prod.mk.injEq] at found
    obtain ⟨⟨inner, after⟩, closed, rfl, rfl⟩ := found
    exact ⟨inner, rfl, closing?_append closed⟩
  · repeat' split at found
    all_goals cases found
    all_goals exact ⟨_, rfl, by simp⟩

theorem first?_length {before : Option Char} {text after : List Char} {lexeme : Lexeme}
    (found : first? before text = some (lexeme, after)) : after.length < text.length := by
  match text with
  | [] => simp [first?] at found
  | c :: rest =>
      obtain ⟨inner, _, rfl⟩ := first?_append found
      simp only [List.length_cons, List.length_append]
      omega

end Lexeme

/-- The characters before the next place where a lexeme starts. -/
def unlexable (before : Option Char) : List Char → List Char
  | [] => []
  | c :: rest =>
      if (Lexeme.first? before (c :: rest)).isSome then []
      else c :: unlexable (some c) rest

/-- A text cut into lexemes from its start, as far as that goes. -/
structure Lexemes where
  lexemes : List Lexeme
  /-- What stands between the last lexeme and the next place where one starts. It is
  empty when the whole text was cut. -/
  stuck : List Char
  deriving DecidableEq, Repr

/-- Cut a text into lexemes. -/
def Lexemes.ofChars (before : Option Char) (text : List Char) : Lexemes :=
  match _found : Lexeme.first? before text with
  | none => ⟨[], unlexable before text⟩
  | some (lexeme, after) =>
      let others := ofChars lexeme.text.getLast? after
      ⟨lexeme :: others.lexemes, others.stuck⟩
  termination_by text.length
  decreasing_by exact Lexeme.first?_length _found

end Fieldmap
