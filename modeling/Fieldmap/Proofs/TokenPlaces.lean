import Fieldmap.Proofs.Coordinates
import Fieldmap.Proofs.Tiling

/-!
# Where tokens stand

The lexemes of a text tile it, and a token carries the position behind all lexemes in
front of it. Each token therefore stands in the text at the coordinates it carries,
and tokens are listed in reading order. The empty token stands at the end alone. Where
no lexeme starts, the refused stretch stands at the coordinates of the error.
-/

namespace Fieldmap

open Text

namespace Token

/-- A token stands in a text at a byte offset, which is the size of the text in front
of it, and carries the coordinates of that place. An empty one stands only at the end
of the text. -/
def StandsAt (token : Token) (text : String) (offset : Nat) : Prop :=
  ∃ front rest : List Char, text.toList = front ++ token.text.toList ++ rest ∧
    byteLength front = offset ∧ token.position = coordinates front ∧
    (token.text = "" → rest = [])

theorem StandsAt.offset_le {token : Token} {text : String} {offset : Nat}
    (stands : token.StandsAt text offset) : offset ≤ text.utf8ByteSize := by
  rcases stands with ⟨front, rest, textEq, rfl, _, _⟩
  rw [← byteLength_toList, textEq, byteLength_append, byteLength_append, Nat.add_assoc]
  exact Nat.le_add_right _ _

end Token

/-! ## Tokens among lexemes -/

section

variable {lexemes : List Lexeme}

/-- A token among lexemes is a stretch of their text. -/
theorem exists_of_mem_placedTokens (filled : ∀ lexeme ∈ lexemes, lexeme.text ≠ [])
    {position : Position} {token : Token} (member : token ∈ placedTokens position lexemes) :
    ∃ front rest, lexemes.flatMap Lexeme.text = front ++ token.text.toList ++ rest ∧
      token.position = position.after front ∧ (token.text = "" → rest = []) := by
  induction lexemes generalizing position with
  | nil =>
      rw [placedTokens, List.mem_singleton] at member
      subst member
      exact ⟨[], [], rfl, rfl, fun _ => rfl⟩
  | cons lexeme others ih =>
      rcases List.forall_mem_cons.mp filled with ⟨lexemeFilled, othersFilled⟩
      have later (laterMember : token ∈ placedTokens (position.after lexeme.text) others) :
          ∃ front rest, (lexeme :: others).flatMap Lexeme.text =
              front ++ token.text.toList ++ rest ∧
            token.position = position.after front ∧ (token.text = "" → rest = []) := by
        obtain ⟨front, rest, textEq, positionEq, atEnd⟩ := ih othersFilled laterMember
        refine ⟨lexeme.text ++ front, rest, ?_, ?_, atEnd⟩
        · simp [textEq]
        · rw [positionEq, Position.after_append]
      rw [placedTokens] at member
      split at member
      · rcases List.mem_cons.mp member with rfl | laterMember
        · refine ⟨[], others.flatMap Lexeme.text, by simp, rfl, ?_⟩
          intro empty
          exact absurd (by simpa using empty) lexemeFilled
        · exact later laterMember
      · exact later member

/-- Tokens are placed in reading order. -/
theorem pairwise_placedTokens (filled : ∀ lexeme ∈ lexemes, lexeme.text ≠ [])
    (position : Position) :
    (placedTokens position lexemes).Pairwise fun earlier later =>
      earlier.position.Precedes later.position := by
  induction lexemes generalizing position with
  | nil => exact List.pairwise_singleton _ _
  | cons lexeme others ih =>
      rcases List.forall_mem_cons.mp filled with ⟨lexemeFilled, othersFilled⟩
      rw [placedTokens]
      split
      · refine .cons ?_ (ih othersFilled _)
        intro later member
        obtain ⟨front, _, _, positionEq, _⟩ := exists_of_mem_placedTokens othersFilled member
        rw [positionEq, ← Position.after_append]
        exact position.precedes_after (List.append_ne_nil_of_left_ne_nil lexemeFilled front)
      · exact ih othersFilled _

/-- Only the last token is empty. -/
theorem exists_placedTokens_eq (filled : ∀ lexeme ∈ lexemes, lexeme.text ≠ [])
    (position : Position) :
    ∃ body last, placedTokens position lexemes = body ++ [last] ∧ last.text = "" ∧
      ∀ token ∈ body, token.text ≠ "" := by
  induction lexemes generalizing position with
  | nil => exact ⟨[], ⟨"", position⟩, rfl, rfl, nofun⟩
  | cons lexeme others ih =>
      rcases List.forall_mem_cons.mp filled with ⟨lexemeFilled, othersFilled⟩
      obtain ⟨body, last, placedEq, lastEmpty, bodyFilled⟩ :=
        ih othersFilled (position.after lexeme.text)
      rw [placedTokens]
      split
      · refine ⟨⟨String.ofList lexeme.text, position⟩ :: body, last, ?_, lastEmpty, ?_⟩
        · rw [placedEq, List.cons_append]
        · refine List.forall_mem_cons.mpr ⟨?_, bodyFilled⟩
          intro empty
          exact absurd (by simpa using empty) lexemeFilled
      · exact ⟨body, last, placedEq, lastEmpty, bodyFilled⟩

end

namespace Token

/-! ## Tokens of a text -/

section

variable {text : String} {tokens : List Token}

theorem ofText_eq_ok (cut : ofText text = .ok tokens) :
    (Lexemes.ofChars none text.toList).stuck = [] ∧
      tokens = placedTokens .start (Lexemes.ofChars none text.toList).lexemes := by
  simp only [ofText] at cut
  split at cut
  · rename_i whole
    cases cut
    exact ⟨List.isEmpty_iff.mp whole, rfl⟩
  · cases cut

/-- Every token of a text stands in it. -/
theorem exists_standsAt (cut : ofText text = .ok tokens) {token : Token}
    (member : token ∈ tokens) : ∃ offset, token.StandsAt text offset := by
  obtain ⟨whole, rfl⟩ := ofText_eq_ok cut
  obtain ⟨charsEq, tiles⟩ := Lexemes.tiles_of_whole whole
  obtain ⟨front, rest, textEq, positionEq, atEnd⟩ :=
    exists_of_mem_placedTokens tiles.text_ne_nil member
  rw [← Lexemes.chars, charsEq] at textEq
  rw [Position.after_start] at positionEq
  exact ⟨byteLength front, front, rest, textEq, rfl, positionEq, atEnd⟩

/-- The tokens of a text are listed in reading order. -/
theorem pairwise_ofText (cut : ofText text = .ok tokens) :
    tokens.Pairwise fun earlier later => earlier.position.Precedes later.position := by
  obtain ⟨whole, rfl⟩ := ofText_eq_ok cut
  exact pairwise_placedTokens (Lexemes.tiles_of_whole whole).2.text_ne_nil _

theorem exists_ofText_eq (cut : ofText text = .ok tokens) :
    ∃ body last, tokens = body ++ [last] ∧ last.text = "" ∧ ∀ token ∈ body, token.text ≠ "" := by
  obtain ⟨whole, rfl⟩ := ofText_eq_ok cut
  exact exists_placedTokens_eq (Lexemes.tiles_of_whole whole).2.text_ne_nil _

end

/-- A refused stretch stands in the text where the error shows. -/
theorem exists_standsAt_of_error {text : String} {error : Spec.Error}
    (refused : ofText text = .error error) :
    ∃ stretch, error.fault = .unlexable stretch ∧
      ∃ offset, StandsAt ⟨stretch, error.position⟩ text offset := by
  obtain ⟨rest, textEq, _, _, stuckEq⟩ := Lexemes.exists_tiles none text.toList
  simp only [ofText] at refused
  split at refused
  · cases refused
  · rename_i someStuck
    cases refused
    rw [stuckEq] at someStuck ⊢
    obtain ⟨others, restEq, _⟩ := unlexable_stops
      (Lexeme.lastChar none (Lexemes.ofChars none text.toList).lexemes) rest
    refine ⟨_, rfl, _, (Lexemes.ofChars none text.toList).chars, others, ?_, rfl, ?_, ?_⟩
    · rw [String.toList_ofList, List.append_assoc, ← restEq]
      exact textEq
    · exact Position.after_start _
    · intro empty
      rw [← String.ofList_nil, String.ofList_inj] at empty
      simp [empty] at someStuck

end Token

end Fieldmap
