import Fieldmap.Text.Span

/-!
# Blank characters

Blank characters separate tokens and are trimmed from the ends of a text. They
are the characters with the White_Space property, in any script.
-/

namespace Fieldmap.Text

/-- The blank characters, as ranges of code points. -/
def blankSpans : List Span := [
    ⟨0x0009, 0x000D⟩, ⟨0x0020, 0x0020⟩, ⟨0x0085, 0x0085⟩, ⟨0x00A0, 0x00A0⟩,
    ⟨0x1680, 0x1680⟩, ⟨0x2000, 0x200A⟩, ⟨0x2028, 0x2029⟩, ⟨0x202F, 0x202F⟩,
    ⟨0x205F, 0x205F⟩, ⟨0x3000, 0x3000⟩]

/-- A blank character. -/
def isBlank (c : Char) : Bool :=
  covers blankSpans c.toNat

/-- The characters left after the blanks at the front. -/
def trimLeft (text : List Char) : List Char :=
  text.dropWhile isBlank

/-- The characters left before the blanks at the end. -/
def trimRight (text : List Char) : List Char :=
  (text.reverse.dropWhile isBlank).reverse

/-- The characters between the blanks at both ends. -/
def trim (text : List Char) : List Char :=
  trimRight (trimLeft text)

end Fieldmap.Text
