import Fieldmap.Text.Position
import Mathlib.Data.List.DropRight

/-!
# Coordinates of places in a text

A place in a text lies between two characters or at an end, and is given by the text
in front of it. Its line is counted by the line feeds in front of it and its column
by the bytes behind the last of them.

Positions are advanced character by character. They are the coordinates of the places
that they are advanced to, and every character moves them forward in reading order.
-/

namespace Fieldmap.Text

/-- The characters behind the last line feed. -/
def lastLine (front : List Char) : List Char :=
  front.rtakeWhile (· != '\n')

/-- The line and the column of the place behind a text. -/
def coordinates (front : List Char) : Position :=
  ⟨1 + front.count '\n', 1 + byteLength (lastLine front)⟩

theorem coordinates_concat (front : List Char) (c : Char) :
    coordinates (front ++ [c]) = (coordinates front).advance c := by
  by_cases lineFeed : c = '\n'
  · subst lineFeed
    simp [coordinates, lastLine, Position.advance, Nat.add_assoc]
  · simp [coordinates, lastLine, Position.advance, lineFeed, Nat.add_assoc]

namespace Position

/-- Advancing over a text leads to the coordinates of the place behind it. -/
theorem after_start (front : List Char) : start.after front = coordinates front := by
  induction front using List.reverseRecOn with
  | nil => rfl
  | append_singleton front c ih =>
      rw [after_append, ih, coordinates_concat]
      rfl

/-! ## Reading order -/

/-- Reading order: line by line, and from left to right in a line. -/
def Precedes (earlier later : Position) : Prop :=
  earlier.line < later.line ∨ earlier.line = later.line ∧ earlier.column < later.column

theorem Precedes.trans {first second third : Position} (before : first.Precedes second)
    (behind : second.Precedes third) : first.Precedes third := by
  unfold Precedes at before behind ⊢
  omega

theorem precedes_advance (position : Position) (c : Char) :
    position.Precedes (position.advance c) := by
  unfold Precedes advance
  have width : 0 < c.utf8Size := c.utf8Size_pos
  split
  · exact .inl (Nat.lt_succ_self position.line)
  · exact .inr ⟨rfl, Nat.lt_add_of_pos_right width⟩

theorem precedes_after (position : Position) {text : List Char} (filled : text ≠ []) :
    position.Precedes (position.after text) := by
  induction text generalizing position with
  | nil => exact absurd rfl filled
  | cons c rest ih =>
      have first := position.precedes_advance c
      cases rest with
      | nil => exact first
      | cons next others => exact first.trans (ih (position.advance c) (List.cons_ne_nil _ _))

end Position

end Fieldmap.Text
