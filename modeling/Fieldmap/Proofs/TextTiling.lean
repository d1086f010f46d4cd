import Fieldmap.Proofs.Pattern
import Fieldmap.Proofs.TokenPlaces

/-!
# How lexemes tile a text

Cutting a text succeeds when lexemes tile all of it. Each of them wins at its place,
where the word boundaries are those of the whole text, and the tokens are the lexemes
other than layout. Otherwise lexemes tile the text up to a place where none starts, and
the error shows there: it quotes the text up to the next place where one does.

Runs of blanks and comments are the layout. Both go on for as long as they can, so that
two runs of blanks never meet.
-/

namespace Fieldmap

open Text

namespace Lexeme

/-- What only separates tokens: a run of blanks as far as blanks go, or a comment up to
the end of its line. -/
inductive IsLayout : Lexeme → List Char → Prop where
  | blanks {run after : List Char} : run ≠ [] → (∀ c ∈ run, isBlank c = true) →
      after.head?.any isBlank = false → IsLayout ⟨.blank, run⟩ after
  | comment {line after : List Char} : '\n' ∉ line → (after = [] ∨ after.head? = some '\n') →
      IsLayout ⟨.comment, '/' :: '/' :: line⟩ after

/-- Lexemes tile a text from its start up to a rest. Each wins where it stands, with the
whole text in front of it. Those that are no tokens are layout, and a blank in front of
a run of blanks belongs to a comment. -/
structure Tile (lexemes : List Lexeme) (rest : List Char) : Prop where
  wins : ∀ earlier lexeme later, lexemes = earlier ++ lexeme :: later →
    Wins (earlier.flatMap Lexeme.text).getLast? lexeme (later.flatMap Lexeme.text ++ rest)
  layout : ∀ earlier lexeme later, lexemes = earlier ++ lexeme :: later →
    lexeme.isToken = false → IsLayout lexeme (later.flatMap Lexeme.text ++ rest)
  apart : ∀ earlier previous lexeme later, lexemes = earlier ++ previous :: lexeme :: later →
    lexeme.kind = .blank → previous.text.getLast?.any isBlank = true → previous.kind = .comment

/-- The tokens among lexemes behind some text, each with the coordinates of its place.
The empty one marks the end. -/
def tokensBehind (front : List Char) : List Lexeme → List Token
  | [] => [⟨"", coordinates front⟩]
  | lexeme :: later =>
      if lexeme.isToken then
        ⟨String.ofList lexeme.text, coordinates front⟩ :: tokensBehind (front ++ lexeme.text) later
      else tokensBehind (front ++ lexeme.text) later

theorem placedTokens_eq_tokensBehind (front : List Char) (lexemes : List Lexeme) :
    placedTokens (coordinates front) lexemes = tokensBehind front lexemes := by
  induction lexemes generalizing front with
  | nil => rfl
  | cons lexeme later ih =>
      have behind : (coordinates front).after lexeme.text = coordinates (front ++ lexeme.text) := by
        rw [← Position.after_start, ← Position.after_start, Position.after_append]
      simp only [placedTokens, tokensBehind, behind, ih]

/-- The empty token alone is the last one, and it stands at the end. -/
theorem exists_tokensBehind_eq (front : List Char) {lexemes : List Lexeme}
    (filled : ∀ lexeme ∈ lexemes, lexeme.text ≠ []) :
    ∃ body, tokensBehind front lexemes =
        body ++ [⟨"", coordinates (front ++ lexemes.flatMap Lexeme.text)⟩] ∧
      ∀ token ∈ body, token.text ≠ "" := by
  induction lexemes generalizing front with
  | nil => exact ⟨[], by simp [tokensBehind], nofun⟩
  | cons lexeme later ih =>
      rcases List.forall_mem_cons.mp filled with ⟨lexemeFilled, laterFilled⟩
      obtain ⟨body, behindEq, bodyFilled⟩ := ih (front ++ lexeme.text) laterFilled
      rw [tokensBehind, behindEq, List.append_assoc, ← List.flatMap_cons]
      split
      · refine ⟨⟨String.ofList lexeme.text, coordinates front⟩ :: body, rfl, ?_⟩
        refine List.forall_mem_cons.mpr ⟨?_, bodyFilled⟩
        intro empty
        exact absurd (by simpa using empty) lexemeFilled
      · exact ⟨body, rfl, bodyFilled⟩

/-- The last character of what stands behind a character. -/
theorem lastChar_eq {before : Option Char} {lexemes : List Lexeme}
    (filled : ∀ lexeme ∈ lexemes, lexeme.text ≠ []) :
    lastChar before lexemes = (lexemes.flatMap Lexeme.text).getLast?.or before := by
  induction lexemes generalizing before with
  | nil => rfl
  | cons lexeme later ih =>
      rcases List.forall_mem_cons.mp filled with ⟨lexemeFilled, laterFilled⟩
      have stepped : lastChar before (lexeme :: later) = lastChar lexeme.text.getLast? later := rfl
      rw [stepped, ih laterFilled, List.flatMap_cons, getLast?_append_or lexemeFilled]

theorem Tiles.stands {before : Option Char} {lexemes : List Lexeme} {rest : List Char}
    (tiles : Tiles before lexemes rest) {earlier : List Lexeme} {lexeme : Lexeme}
    {later : List Lexeme} (split : lexemes = earlier ++ lexeme :: later) :
    Stands (lastChar before earlier) lexeme (later.flatMap Lexeme.text ++ rest) := by
  induction earlier generalizing before lexemes with
  | nil =>
      subst split
      cases tiles with
      | cons stands _ => exact stands
  | cons first earlier ih =>
      subst split
      cases tiles with
      | cons _ tiles => exact ih tiles rfl

theorem Stands.isLayout {before : Option Char} {lexeme : Lexeme} {after : List Char}
    (stands : Stands before lexeme after) (isLayout : lexeme.isToken = false) :
    IsLayout lexeme after := by
  cases stands with
  | comment oneLine stop =>
      refine .comment ?_ ?_
      · intro member
        exact absurd (oneLine _ member) (by decide)
      · cases after with
        | nil => exact .inl rfl
        | cons c rest => exact .inr (by simpa using stop)
  | blank first inside stop =>
      exact .blanks (List.cons_ne_nil _ _) (List.forall_mem_cons.mpr ⟨first, inside⟩) stop
  | _ => cases isLayout

/-- Only comments and runs of blanks end in a blank. -/
theorem Stands.kind_of_blank_last {before : Option Char} {lexeme : Lexeme} {after : List Char}
    (stands : Stands before lexeme after) (blank : lexeme.text.getLast?.any isBlank = true) :
    lexeme.kind = .comment ∨ lexeme.kind = .blank := by
  obtain ⟨last, lastEq⟩ := Option.isSome_iff_exists.mp (Option.isSome_of_any blank)
  rw [lastEq, Option.any_some] at blank
  have ends := endsWord_of_isBlank blank
  -- What continues a number ends no lexeme in a blank.
  have notInNumber {digits : List Char} (number : isUnsignedNumber digits = true) :
      ¬ last ∈ digits := by
    intro member
    have continues := isNumberRest_of_mem number last member
    rw [endsWord.not_isNumberRest ends] at continues
    cases continues
  cases stands with
  | quoted closed =>
      obtain ⟨body, rfl, _⟩ := Pattern.exists_takes_of_closing? closed
      rw [← List.cons_append, List.getLast?_concat] at lastEq
      cases lastEq
      cases blank
  | @signed digits _ number _ =>
      rcases List.mem_cons.mp (List.mem_of_getLast? lastEq) with rfl | member
      · cases blank
      · exact absurd member (notInNumber number)
  | unsigned number _ _ => exact absurd (List.mem_of_getLast? lastEq) (notInNumber number)
  | mark mark =>
      have lastMark : mark.char = last := by simpa using lastEq
      rw [← lastMark, mark.isBlank_char] at blank
      cases blank
  | identifier identifier _ _ =>
      have outside := endsWord.not_isIdentifierRest ends
      exact absurd (List.mem_of_getLast? lastEq) (not_mem_of_isIdentifier identifier outside)
  | comment => exact .inl rfl
  | blank => exact .inr rfl

/-- Lexemes that tile a text from its start win one by one. -/
theorem Tiles.tile {lexemes : List Lexeme} {rest : List Char} (tiles : Tiles none lexemes rest) :
    Tile lexemes rest := by
  have filled := tiles.text_ne_nil
  refine ⟨?_, ?_, ?_⟩
  · intro earlier lexeme later split
    have stands := tiles.stands split
    rw [split] at filled
    have earlierFilled : ∀ lexeme ∈ earlier, lexeme.text ≠ [] :=
      fun lexeme member => filled lexeme (List.mem_append_left _ member)
    rw [lastChar_eq earlierFilled, Option.or_none] at stands
    exact stands.wins
  · intro earlier lexeme later split isLayout
    exact (tiles.stands split).isLayout isLayout
  · intro earlier previous lexeme later split blankKind blankLast
    have stands := tiles.stands split
    rcases stands.kind_of_blank_last blankLast with comment | blank
    · exact comment
    · -- A run of blanks in front would have gone on.
      have behind : Stands _ lexeme (later.flatMap Lexeme.text ++ rest) :=
        tiles.stands (split.trans (List.append_cons earlier previous (lexeme :: later)))
      rcases previous with ⟨kind, run⟩
      rcases lexeme with ⟨lexemeKind, text⟩
      cases blank
      cases blankKind
      cases stands with
      | blank _ _ stop =>
          cases behind with
          | blank first _ _ => simp [first] at stop

end Lexeme

namespace Token

open Lexeme (Tile tokensBehind)

theorem exists_tile_of_ok {text : String} {tokens : List Token} (cut : ofText text = .ok tokens) :
    ∃ lexemes, text.toList = lexemes.flatMap Lexeme.text ∧ Tile lexemes [] ∧
      tokens = tokensBehind [] lexemes ∧
      ∃ body, tokens = body ++ [⟨"", coordinates text.toList⟩] ∧
        ∀ token ∈ body, token.text ≠ "" := by
  obtain ⟨whole, tokensEq⟩ := ofText_eq_ok cut
  obtain ⟨charsEq, tiles⟩ := Lexemes.tiles_of_whole whole
  have placed := Lexeme.placedTokens_eq_tokensBehind [] (Lexemes.ofChars none text.toList).lexemes
  obtain ⟨body, behindEq, bodyFilled⟩ := Lexeme.exists_tokensBehind_eq [] tiles.text_ne_nil
  rw [List.nil_append, ← Lexemes.chars, charsEq] at behindEq
  exact ⟨_, charsEq.symm, tiles.tile, tokensEq.trans placed, body,
    (tokensEq.trans placed).trans behindEq, bodyFilled⟩

theorem exists_tile_of_error {text : String} {error : Spec.Error}
    (refused : ofText text = .error error) :
    ∃ lexemes front stretch rest, text.toList = front ++ stretch ++ rest ∧ stretch ≠ [] ∧
      front = lexemes.flatMap Lexeme.text ∧ Tile lexemes (stretch ++ rest) ∧
      error = ⟨coordinates front, .unlexable (String.ofList stretch)⟩ ∧
      (∀ inner later, stretch = inner ++ later → later ≠ [] →
        ∀ kind : LexemeKind, ¬ kind.Starts (front ++ inner).getLast? (later ++ rest)) ∧
      (rest = [] ∨ ∃ kind : LexemeKind, kind.Starts (front ++ stretch).getLast? rest) := by
  obtain ⟨others, textEq, tiles, _, stuckEq⟩ := Lexemes.exists_tiles none text.toList
  rw [ofText] at refused
  generalize Lexemes.ofChars none text.toList = cut at refused textEq tiles stuckEq
  rcases cut with ⟨lexemes, stretch⟩
  change text.toList = lexemes.flatMap Lexeme.text ++ others at textEq
  change stretch = unlexable (Lexeme.lastChar none lexemes) others at stuckEq
  rw [Lexeme.lastChar_eq tiles.text_ne_nil, Option.or_none] at stuckEq
  obtain ⟨rest, othersEq, nowhere, stops⟩ :=
    unlexable_stops (lexemes.flatMap Lexeme.text).getLast? others
  rw [← stuckEq] at othersEq nowhere stops
  subst othersEq
  -- What a place in the stretch has in front of it lies in the whole text.
  have inFront (inner : List Char) : (lexemes.flatMap Lexeme.text ++ inner).getLast? =
      inner.getLast?.or (lexemes.flatMap Lexeme.text).getLast? := List.getLast?_append
  split at refused
  · cases refused
  · rename_i filled
    cases refused
    refine ⟨lexemes, _, stretch, rest, ?_, by simpa using filled, rfl, tiles.tile, ?_, ?_, ?_⟩
    · rw [textEq, List.append_assoc]
    · rw [← Position.after_start]
      rfl
    · intro inner later split laterFilled
      rw [inFront]
      exact Lexeme.first?_eq_none_iff.mp (nowhere inner later split laterFilled)
    · rw [inFront]
      refine stops.imp_right ?_
      rintro ⟨⟨lexeme, after⟩, found⟩
      obtain ⟨rfl, stands⟩ := Lexeme.first?_eq_some_iff.mp found
      exact ⟨lexeme.kind, _, _, rfl, stands.takes⟩

/-- A text that is taken is tiled as a whole, and its tokens are those among the lexemes,
each at the coordinates of its place. Otherwise the text is tiled up to a place where no
lexeme starts, and the stretch up to the next place where one starts is refused there. -/
theorem ofText_tiled (text : String) :
    (∀ tokens, ofText text = .ok tokens →
      ∃ lexemes, text.toList = lexemes.flatMap Lexeme.text ∧ Tile lexemes [] ∧
        tokens = tokensBehind [] lexemes ∧
        ∃ body, tokens = body ++ [⟨"", coordinates text.toList⟩] ∧
          ∀ token ∈ body, token.text ≠ "") ∧
    ∀ error, ofText text = .error error →
      ∃ lexemes front stretch rest, text.toList = front ++ stretch ++ rest ∧ stretch ≠ [] ∧
        front = lexemes.flatMap Lexeme.text ∧ Tile lexemes (stretch ++ rest) ∧
        error = ⟨coordinates front, .unlexable (String.ofList stretch)⟩ ∧
        error.message =
          Spec.locate (coordinates front) ("Syntax error: " ++ quote (String.ofList stretch)) ∧
        (∀ inner later, stretch = inner ++ later → later ≠ [] →
          ∀ kind : LexemeKind, ¬ kind.Starts (front ++ inner).getLast? (later ++ rest)) ∧
        (rest = [] ∨ ∃ kind : LexemeKind, kind.Starts (front ++ stretch).getLast? rest) := by
  refine ⟨fun _ cut => exists_tile_of_ok cut, ?_⟩
  intro error refused
  obtain ⟨lexemes, front, stretch, rest, textEq, filled, frontEq, tile, rfl, nowhere, stops⟩ :=
    exists_tile_of_error refused
  exact ⟨lexemes, front, stretch, rest, textEq, filled, frontEq, tile, rfl, rfl, nowhere, stops⟩

end Token

end Fieldmap
