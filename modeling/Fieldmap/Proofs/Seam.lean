import Fieldmap.Proofs.Relocation
import Fieldmap.Proofs.TokenPlaces

/-!
# Texts one below the other

A line feed keeps two texts apart. Whatever the first ends with, an open comment, a
word or a run of blanks, its lexemes stand as before, and those of the second stand as
at the start of a text. The tokens of both texts follow each other, the second ones
moved down by the lines of the first.
-/

namespace Fieldmap

open Text

/-! ## The character in front -/

namespace Lexeme

/-- The character in front of a text only matters where it touches a word. -/
theorem first?_congr {left right : Option Char} (same : touchesWord left = touchesWord right)
    (text : List Char) : first? left text = first? right text := by
  cases text with
  | nil => rfl
  | cons c rest => simp only [first?, same]

end Lexeme

theorem unlexable_congr {left right : Option Char}
    (same : Lexeme.touchesWord left = Lexeme.touchesWord right) (text : List Char) :
    unlexable left text = unlexable right text := by
  cases text with
  | nil => rfl
  | cons c rest => rw [unlexable, unlexable, Lexeme.first?_congr same]

namespace Lexemes

theorem ofChars_congr {left right : Option Char}
    (same : Lexeme.touchesWord left = Lexeme.touchesWord right) (text : List Char) :
    ofChars left text = ofChars right text := by
  cases found : Lexeme.first? left text with
  | none =>
      have rightMissing := (Lexeme.first?_congr same text).symm.trans found
      rw [ofChars_of_none found, ofChars_of_none rightMissing, unlexable_congr same]
  | some first =>
      rcases first with ⟨lexeme, after⟩
      have rightFound := (Lexeme.first?_congr same text).symm.trans found
      obtain ⟨rfl, leftStands⟩ := Lexeme.first?_eq_some_iff.mp found
      have rightStands := (Lexeme.first?_eq_some_iff.mp rightFound).2
      rw [ofChars_append leftStands, ofChars_append rightStands]

/-- A run of blanks leaves no trace but in the positions behind it. -/
theorem ofChars_blanks {run : List Char} (inside : ∀ c ∈ run, isBlank c = true)
    (before : Option Char) (text : List Char) :
    (ofChars before (run ++ text)).stuck = (ofChars (run.getLast?.or before) text).stuck ∧
      ∀ position, placedTokens position (ofChars before (run ++ text)).lexemes =
        placedTokens (position.after run) (ofChars (run.getLast?.or before) text).lexemes := by
  induction run generalizing before with
  | nil => exact ⟨rfl, fun _ => rfl⟩
  | cons c run ih =>
      rcases List.forall_mem_cons.mp inside with ⟨blank, runInside⟩
      obtain ⟨firstStuck, firstPlaced⟩ := ofChars_blank blank before (run ++ text)
      obtain ⟨restStuck, restPlaced⟩ := ih runInside (some c)
      rw [List.cons_append, getLast?_cons_or]
      constructor
      · exact firstStuck.trans restStuck
      · intro position
        exact (firstPlaced position).trans (restPlaced _)

end Lexemes

/-! ## The seam -/

/-- What stops at the end of a text stops at a line feed too. -/
theorem any_head?_append_lineFeed {property : Char → Bool} {after : List Char}
    (stop : after.head?.any property = false) (outside : property '\n' = false)
    (second : List Char) : (after ++ '\n' :: second).head?.any property = false := by
  cases after with
  | nil => exact outside
  | cons c rest => exact stop

/-- A lexeme other than a run of blanks stands in front of a further line. -/
theorem Lexeme.Stands.append_lineFeed {before : Option Char} {lexeme : Lexeme}
    {after : List Char} (stands : Stands before lexeme after) (ink : lexeme.kind ≠ .blank)
    (second : List Char) : Stands before lexeme (after ++ '\n' :: second) := by
  cases stands with
  | quoted closed => exact .quoted closed
  | signed number stop =>
      exact .signed number (any_head?_append_lineFeed stop (by decide) second)
  | unsigned number apart stop =>
      exact .unsigned number apart (any_head?_append_lineFeed stop (by decide) second)
  | mark mark => exact .mark mark
  | identifier identifier apart stop =>
      exact .identifier identifier apart (any_head?_append_lineFeed stop (by decide) second)
  | comment oneLine stop =>
      exact .comment oneLine (any_head?_append_lineFeed stop (by decide) second)
  | blank => exact absurd rfl ink

/-- Behind lexemes and a line feed, a text is cut as it is by itself. -/
theorem Lexeme.Tiles.ofChars_lineFeed {before : Option Char} {lexemes : List Lexeme}
    {rest : List Char} (tiles : Tiles before lexemes rest) (atEnd : rest = [])
    (second : List Char) :
    (Lexemes.ofChars before (lexemes.flatMap Lexeme.text ++ '\n' :: second)).stuck =
        (Lexemes.ofChars none second).stuck ∧
      ∀ position,
        placedTokens position
            (Lexemes.ofChars before (lexemes.flatMap Lexeme.text ++ '\n' :: second)).lexemes =
          (placedTokens position lexemes).dropLast ++
            placedTokens (position.after (lexemes.flatMap Lexeme.text ++ ['\n']))
              (Lexemes.ofChars none second).lexemes := by
  induction tiles with
  | @nil before _ =>
      have fresh : Lexemes.ofChars (some '\n') second = Lexemes.ofChars none second :=
        Lexemes.ofChars_congr (by decide) second
      have blank := Lexemes.ofChars_blank isBlank_lineFeed before second
      rw [fresh] at blank
      exact blank
  | @cons before lexeme others rest stands _ ih =>
      subst atEnd
      obtain ⟨stuckEq, placedEq⟩ := ih rfl
      rw [List.append_nil] at stands
      rw [List.flatMap_cons, List.append_assoc]
      have behind (position : Position) :
          position.after (lexeme.text ++ others.flatMap Lexeme.text ++ ['\n']) =
            (position.after lexeme.text).after (others.flatMap Lexeme.text ++ ['\n']) := by
        rw [List.append_assoc, Position.after_append]
      by_cases blank : lexeme.kind = .blank
      · have notToken : lexeme.isToken = false := by simp [isToken, blank]
        have inside : ∀ c ∈ lexeme.text, isBlank c = true := by
          cases stands with
          | blank first inside _ => exact List.forall_mem_cons.mpr ⟨first, inside⟩
          | _ => cases blank
        have someLast : lexeme.text.getLast?.or before = lexeme.text.getLast? := by
          rw [List.getLast?_eq_some_getLast stands.text_ne_nil]
          rfl
        obtain ⟨blankStuck, blankPlaced⟩ := Lexemes.ofChars_blanks inside before
          (others.flatMap Lexeme.text ++ '\n' :: second)
        rw [someLast] at blankStuck blankPlaced
        refine ⟨blankStuck.trans stuckEq, ?_⟩
        intro position
        rw [blankPlaced, placedEq, behind, placedTokens, notToken]
        rfl
      · rw [Lexemes.ofChars_append (stands.append_lineFeed blank second)]
        refine ⟨stuckEq, ?_⟩
        intro position
        simp only [placedTokens, behind]
        split
        · rw [placedEq, List.dropLast_cons_of_ne_nil (placedTokens_ne_nil _ _), List.cons_append]
        · exact placedEq _

/-! ## Moving down -/

namespace Text.Position

/-- The position some lines further down. -/
def down (lines : Nat) (position : Position) : Position :=
  ⟨position.line + lines, position.column⟩

theorem advance_down (lines : Nat) (position : Position) (c : Char) :
    (position.down lines).advance c = (position.advance c).down lines := by
  unfold advance down
  split
  · simp only [Position.mk.injEq, and_true]
    exact Nat.add_right_comm _ _ _
  · rfl

theorem after_down (lines : Nat) (position : Position) (text : List Char) :
    (position.down lines).after text = (position.after text).down lines := by
  induction text generalizing position with
  | nil => rfl
  | cons c rest ih => rw [after_cons, after_cons, advance_down, ih]

/-- The start of a line lies below the start of the text by the lines in front. -/
theorem after_start_lineFeed (front : List Char) :
    start.after (front ++ ['\n']) = start.down (front.count '\n' + 1) := by
  rw [after_append, after_start]
  simp only [after_cons, after_nil, advance, ↓reduceIte, coordinates, down, start]
  simp only [Position.mk.injEq, and_true]
  exact Nat.add_assoc _ _ _

end Text.Position

theorem placedTokens_down (lines : Nat) (position : Position) (lexemes : List Lexeme) :
    placedTokens (position.down lines) lexemes =
      (placedTokens position lexemes).map (Token.relocate (Position.down lines)) := by
  induction lexemes generalizing position with
  | nil => rfl
  | cons lexeme rest ih =>
      simp only [placedTokens, Position.after_down]
      split
      · rw [ih]
        rfl
      · exact ih _

/-- The tokens of two texts one below the other. -/
theorem Token.ofText_lines {first second : String} {firstTokens secondTokens : List Token}
    (firstCut : ofText first = .ok firstTokens) (secondCut : ofText second = .ok secondTokens) :
    ofText (first ++ "\n" ++ second) =
      .ok (firstTokens.dropLast ++
        secondTokens.map (relocate (Position.down (first.toList.count '\n' + 1)))) := by
  obtain ⟨firstWhole, rfl⟩ := ofText_eq_ok firstCut
  obtain ⟨secondWhole, rfl⟩ := ofText_eq_ok secondCut
  obtain ⟨charsEq, tiles⟩ := Lexemes.tiles_of_whole firstWhole
  obtain ⟨stuckEq, placedEq⟩ := tiles.ofChars_lineFeed rfl second.toList
  rw [← Lexemes.chars, charsEq] at stuckEq placedEq
  have textEq : (first ++ "\n" ++ second).toList = first.toList ++ '\n' :: second.toList := by
    simp
  rw [secondWhole] at stuckEq
  simp only [ofText, textEq, stuckEq, List.isEmpty_nil, ↓reduceIte, placedEq]
  rw [Position.after_start_lineFeed, placedTokens_down]

end Fieldmap
