import Fieldmap.Proofs.LexemeShape
import Fieldmap.Token.Stream

/-!
# Texts tiled by lexemes

Cutting a text lays lexemes one behind the other, each where it stands. They tile the
text up to its end, or up to a place where no lexeme stands; there a stretch is left
that reaches to the next place where one does.

A run of blanks may be cut anywhere. This changes the lexemes but neither the tokens
nor their positions.
-/

namespace Fieldmap

open Text

namespace Lexeme

/-- The character in front of whatever follows some lexemes. -/
def lastChar (before : Option Char) (lexemes : List Lexeme) : Option Char :=
  lexemes.foldl (fun _ lexeme => lexeme.text.getLast?) before

/-- Lexemes that stand one behind the other, and in front of a text. -/
inductive Tiles : Option Char → List Lexeme → List Char → Prop where
  | nil {before : Option Char} {rest : List Char} : Tiles before [] rest
  | cons {before : Option Char} {lexeme : Lexeme} {others : List Lexeme} {rest : List Char} :
      Stands before lexeme (others.flatMap Lexeme.text ++ rest) →
      Tiles lexeme.text.getLast? others rest → Tiles before (lexeme :: others) rest

theorem Stands.text_ne_nil {before : Option Char} {lexeme : Lexeme} {after : List Char}
    (stands : Stands before lexeme after) : lexeme.text ≠ [] := by
  have shorter := first?_length stands.first?_eq
  intro empty
  simp [empty] at shorter

theorem Tiles.text_ne_nil {before : Option Char} {lexemes : List Lexeme} {rest : List Char}
    (tiles : Tiles before lexemes rest) : ∀ lexeme ∈ lexemes, lexeme.text ≠ [] := by
  induction tiles with
  | nil => nofun
  | cons stands _ ih => exact List.forall_mem_cons.mpr ⟨stands.text_ne_nil, ih⟩

end Lexeme

namespace Lexemes

/-! ## Cutting -/

/-- Cutting goes on behind a lexeme that stands at the head. -/
theorem ofChars_append {before : Option Char} {lexeme : Lexeme} {after : List Char}
    (stands : Lexeme.Stands before lexeme after) :
    ofChars before (lexeme.text ++ after) =
      ⟨lexeme :: (ofChars lexeme.text.getLast? after).lexemes,
        (ofChars lexeme.text.getLast? after).stuck⟩ := by
  rw [ofChars]
  split
  · rename_i missing
    rw [stands.first?_eq] at missing
    cases missing
  · rename_i found
    rw [stands.first?_eq] at found
    cases found
    rfl

/-- Cutting ends where no lexeme stands at the head. -/
theorem ofChars_of_none {before : Option Char} {text : List Char}
    (missing : Lexeme.first? before text = none) :
    ofChars before text = ⟨[], unlexable before text⟩ := by
  rw [ofChars]
  split
  · rfl
  · rename_i found
    rw [missing] at found
    cases found

/-- The lexemes of a text tile it up to a place where no lexeme stands. The stretch
that is left begins there. -/
theorem exists_tiles (before : Option Char) (text : List Char) :
    ∃ rest, text = (ofChars before text).chars ++ rest ∧
      Lexeme.Tiles before (ofChars before text).lexemes rest ∧
      Lexeme.first? (Lexeme.lastChar before (ofChars before text).lexemes) rest = none ∧
      (ofChars before text).stuck =
        unlexable (Lexeme.lastChar before (ofChars before text).lexemes) rest := by
  induction before, text using ofChars.induct with
  | case1 before text missing =>
      rw [ofChars_of_none missing]
      exact ⟨text, rfl, .nil, missing, rfl⟩
  | case2 before text lexeme after found ih =>
      obtain ⟨rfl, stands⟩ := Lexeme.first?_eq_some_iff.mp found
      rcases ih with ⟨rest, afterEq, tiles, missing, stuckEq⟩
      rw [ofChars_append stands]
      refine ⟨rest, ?_, .cons ?_ tiles, missing, stuckEq⟩
      · simpa [chars] using afterEq
      · rwa [← chars, ← afterEq]

end Lexemes

/-- The character in front of a text counts only until the text has one of its own. -/
theorem getLast?_cons_or (c : Char) (text : List Char) (before : Option Char) :
    (c :: text).getLast?.or before = text.getLast?.or (some c) := by
  rw [List.getLast?_cons, Option.some_or, Option.or_some]

theorem getLast?_append_or {front : List Char} (filled : front ≠ []) (text : List Char)
    (before : Option Char) : (front ++ text).getLast?.or before = text.getLast?.or front.getLast? := by
  rw [List.getLast?_append, Option.or_assoc, List.getLast?_eq_some_getLast filled, Option.some_or]

/-- The refused stretch goes on up to the next place where a lexeme is found. -/
theorem unlexable_stops (before : Option Char) (text : List Char) :
    ∃ rest, text = unlexable before text ++ rest ∧
      (∀ inner later, unlexable before text = inner ++ later → later ≠ [] →
        Lexeme.first? (inner.getLast?.or before) (later ++ rest) = none) ∧
      (rest = [] ∨
        ∃ found, Lexeme.first? ((unlexable before text).getLast?.or before) rest = some found) := by
  induction text generalizing before with
  | nil =>
      refine ⟨[], rfl, ?_, .inl rfl⟩
      intro inner later split filled
      exact absurd (List.append_eq_nil_iff.mp split.symm).2 filled
  | cons c text ih =>
      cases found : Lexeme.first? before (c :: text) with
      | some first =>
          refine ⟨c :: text, by simp [unlexable, found], ?_, .inr ⟨first, by simp [unlexable, found]⟩⟩
          intro inner later split filled
          simp only [unlexable, found, Option.isSome_some, ↓reduceIte] at split
          exact absurd (List.append_eq_nil_iff.mp split.symm).2 filled
      | none =>
          obtain ⟨rest, textEq, nowhere, stops⟩ := ih (some c)
          have stretchEq : unlexable before (c :: text) = c :: unlexable (some c) text := by
            simp [unlexable, found]
          rw [stretchEq, getLast?_cons_or]
          refine ⟨rest, congrArg (c :: ·) textEq, ?_, stops⟩
          intro inner later split filled
          cases inner with
          | nil =>
              rw [List.nil_append] at split
              rw [← split, List.cons_append, ← textEq]
              exact found
          | cons first inner =>
              rw [List.cons_append, List.cons.injEq] at split
              rcases split with ⟨rfl, split⟩
              rw [getLast?_cons_or]
              exact nowhere inner later split filled

/-- Where no lexeme stands, a stretch is left unless the text is at its end. -/
theorem eq_nil_of_unlexable_eq_nil {before : Option Char} {text : List Char}
    (missing : Lexeme.first? before text = none) (nothing : unlexable before text = []) :
    text = [] := by
  cases text with
  | nil => rfl
  | cons c rest => simp [unlexable, missing] at nothing

namespace Lexemes

/-- A text that is cut as a whole is tiled as a whole. -/
theorem tiles_of_whole {before : Option Char} {text : List Char}
    (whole : (ofChars before text).stuck = []) :
    (ofChars before text).chars = text ∧
      Lexeme.Tiles before (ofChars before text).lexemes [] := by
  obtain ⟨rest, textEq, tiles, missing, stuckEq⟩ := exists_tiles before text
  rw [whole] at stuckEq
  obtain rfl := eq_nil_of_unlexable_eq_nil missing stuckEq.symm
  rw [List.append_nil] at textEq
  exact ⟨textEq.symm, tiles⟩

/-! ## Runs of blanks -/

/-- One more blank in front only makes the first run of blanks longer. -/
theorem ofChars_blank {c : Char} (blank : isBlank c = true) (before : Option Char)
    (text : List Char) :
    (ofChars before (c :: text)).stuck = (ofChars (some c) text).stuck ∧
      ∀ position, placedTokens position (ofChars before (c :: text)).lexemes =
        placedTokens (position.advance c) (ofChars (some c) text).lexemes := by
  have inside : ∀ c ∈ text.takeWhile isBlank, isBlank c = true :=
    List.all_eq_true.mp List.all_takeWhile
  have stop := head?_dropWhile_stop isBlank text
  have cut : text = text.takeWhile isBlank ++ text.dropWhile isBlank :=
    List.takeWhile_append_dropWhile.symm
  have outer : Lexeme.Stands before ⟨.blank, c :: text.takeWhile isBlank⟩
      (text.dropWhile isBlank) := .blank blank inside stop
  have outerCut := ofChars_append outer
  rw [List.cons_append, ← cut] at outerCut
  rw [outerCut]
  cases run : text.takeWhile isBlank with
  | nil =>
      rw [run, List.nil_append] at cut
      rw [← cut]
      exact ⟨rfl, fun _ => rfl⟩
  | cons first others =>
      have firstBlank : isBlank first = true := inside first (by simp [run])
      have othersBlank : ∀ c ∈ others, isBlank c = true :=
        fun c member => inside c (by simp [run, member])
      have inner : Lexeme.Stands (some c) ⟨.blank, first :: others⟩ (text.dropWhile isBlank) :=
        .blank firstBlank othersBlank stop
      have innerCut := ofChars_append inner
      rw [← run, ← cut, run] at innerCut
      rw [innerCut]
      exact ⟨rfl, fun _ => rfl⟩

end Lexemes

end Fieldmap
