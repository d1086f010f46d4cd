/-!
# Punctuation marks

The six marks that structure a specification. Each is a token by itself.
-/

namespace Fieldmap

/-- A punctuation mark. -/
inductive Mark where
  | leftBrace
  | rightBrace
  | leftParen
  | rightParen
  | semicolon
  | comma
  deriving DecidableEq, Repr

namespace Mark

/-- All marks. -/
def all : List Mark := [leftBrace, rightBrace, leftParen, rightParen, semicolon, comma]

theorem mem_all (mark : Mark) : mark ∈ all := by
  cases mark <;> decide

/-- The character of a mark. -/
def char : Mark → Char
  | leftBrace => '\x7b'
  | rightBrace => '\x7d'
  | leftParen => '('
  | rightParen => ')'
  | semicolon => ';'
  | comma => ','

/-- The mark with a given character. -/
def ofChar? (c : Char) : Option Mark :=
  all.find? fun mark => mark.char == c

@[simp] theorem ofChar?_char (mark : Mark) : ofChar? mark.char = some mark := by
  cases mark <;> decide

theorem ofChar?_eq_some_iff {c : Char} {mark : Mark} :
    ofChar? c = some mark ↔ mark.char = c := by
  constructor
  · intro found
    simpa using List.find?_some found
  · rintro rfl
    exact ofChar?_char mark

end Mark

end Fieldmap
