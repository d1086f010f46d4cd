import Fieldmap.Proofs.Spelling
import Fieldmap.Text.Literal
import Fieldmap.Text.Quoted
import Mathlib.Tactic.SplitIfs

/-!
# Quoted texts read back

Whatever characters a text has, its written form is one quoted token, and reading
that token as a literal gives the text again. The cutter, the class of quoted tokens
and the reader of literals each look at the written form on their own; all three go
by the same account of how one character is written.
-/

namespace Fieldmap

open Text

/-! ## One character -/

/-- A character that means nothing by itself between quotes. -/
def isInert (c : Char) : Bool :=
  c != '"' && c != '\\' && c != '\n'

/-- How a character may be written between quotes: as it stands, or as an escape that
is read as the character. -/
inductive Written (c : Char) : List Char → Prop where
  | plain : isInert c → ¬ c.toNat < 0x20 → Written c [c]
  | escaped {letter : Char} {digits : List Char} : letter ≠ '\n' →
      (∀ digit ∈ digits, isInert digit = true) →
      (∀ offset rest, ∃ next,
        Literal.escaped offset (letter :: digits ++ rest) = .ok ⟨c, next, rest⟩) →
      Written c ('\\' :: letter :: digits)

theorem isInert_digitChar {value : Nat} (small : value < 16) :
    isInert (Nat.digitChar value) = true := by
  have every : ∀ value : Fin 16, isInert (Nat.digitChar value) = true := by decide
  exact every ⟨value, small⟩

theorem Literal.hexValue?_digitChar {value : Nat} (small : value < 16) :
    Literal.hexValue? (Nat.digitChar value) = some value := by
  have every : ∀ value : Fin 16,
      Literal.hexValue? (Nat.digitChar value) = some value.val := by decide
  exact every ⟨value, small⟩

/-- A control character is read back from its four hexadecimal digits. -/
theorem Literal.escaped_control {c : Char} (control : c.toNat < 0x20) (offset : Nat)
    (rest : List Char) :
    Literal.escaped offset
        ('u' :: '0' :: '0' ::
          Nat.digitChar (c.toNat / 16) :: Nat.digitChar (c.toNat % 16) :: rest) =
      .ok ⟨c, offset + 5, rest⟩ := by
  have zero : Literal.hexValue? '0' = some 0 := by decide
  have highSmall : c.toNat / 16 < 16 := by omega
  have high := Literal.hexValue?_digitChar highSmall
  have low := Literal.hexValue?_digitChar (Nat.mod_lt c.toNat (by decide : 16 > 0))
  have code : c.toNat / 16 * 16 + c.toNat % 16 = c.toNat := Nat.div_add_mod' c.toNat 16
  have notLow : Literal.isLowSurrogate c.toNat = false := by
    simp only [Literal.isLowSurrogate, Bool.and_eq_false_iff, decide_eq_false_iff_not]
    omega
  have notHigh : Literal.isHighSurrogate c.toNat = false := by
    simp only [Literal.isHighSurrogate, Bool.and_eq_false_iff, decide_eq_false_iff_not]
    omega
  simp [Literal.escaped, Literal.unicodeEscape, Literal.codeUnit, Literal.fourHex?, zero, high, low,
    code, notLow, notHigh, bind, Except.bind]

/-- A letter behind a backslash is all there is to a short escape. -/
theorem written_short {c letter : Char} (notBreak : letter ≠ '\n')
    (reads : ∀ offset rest,
      Literal.escaped offset (letter :: rest) = .ok ⟨c, offset + 1, rest⟩) :
    Written c ['\\', letter] :=
  .escaped notBreak nofun fun offset rest => ⟨offset + 1, reads offset rest⟩

/-- A control character without a short escape is written by its number. -/
theorem written_control {c : Char} (control : c.toNat < 0x20) :
    Written c
      ['\\', 'u', '0', '0', Nat.digitChar (c.toNat / 16), Nat.digitChar (c.toNat % 16)] := by
  have highSmall : c.toNat / 16 < 16 := by omega
  have lowSmall : c.toNat % 16 < 16 := Nat.mod_lt c.toNat (by decide)
  apply Written.escaped
  · decide
  · intro digit member
    simp only [List.mem_cons, List.not_mem_nil, or_false] at member
    rcases member with isZero | isZero | isHigh | isLow
    · subst isZero
      decide
    · subst isZero
      decide
    · subst isHigh
      exact isInert_digitChar highSmall
    · subst isLow
      exact isInert_digitChar lowSmall
  · intro offset rest
    exact ⟨offset + 5, Literal.escaped_control control offset rest⟩

/-- Every character is written in a way that is read as the character. -/
theorem written_escape (c : Char) : Written c (escape c) := by
  unfold escape
  split_ifs with isQuote isBackslash isBackspace isFormFeed isLineFeed isReturn isTab control
  · subst isQuote
    exact written_short (by decide) fun _ _ => rfl
  · subst isBackslash
    exact written_short (by decide) fun _ _ => rfl
  · subst isBackspace
    exact written_short (by decide) fun _ _ => rfl
  · subst isFormFeed
    exact written_short (by decide) fun _ _ => rfl
  · subst isLineFeed
    exact written_short (by decide) fun _ _ => rfl
  · subst isReturn
    exact written_short (by decide) fun _ _ => rfl
  · subst isTab
    exact written_short (by decide) fun _ _ => rfl
  · exact written_control control
  · apply Written.plain
    · simp [isInert, isQuote, isBackslash, isLineFeed]
    · exact control

/-! ## Whole texts -/

namespace Lexeme

theorem closing?_cons_inert {c : Char} (inert : isInert c = true) (rest : List Char) :
    closing? (c :: rest) = (closing? rest).map fun (inner, after) => (c :: inner, after) := by
  simp only [isInert, Bool.and_eq_true, bne_iff_ne] at inert
  exact closing?_cons_plain inert.1.1 inert.2 inert.1.2

theorem closing?_append_inert {front rest : List Char} (inert : ∀ c ∈ front, isInert c = true) :
    closing? (front ++ rest) =
      (closing? rest).map fun (inner, after) => (front ++ inner, after) := by
  induction front with
  | nil => simp
  | cons c front ih =>
      rw [List.cons_append, closing?_cons_inert (inert c List.mem_cons_self),
        ih fun c member => inert c (List.mem_cons_of_mem _ member), Option.map_map]
      rfl

/-- A written character closes no quote. -/
theorem closing?_append_written {c : Char} {stretch : List Char} (written : Written c stretch)
    (rest : List Char) :
    closing? (stretch ++ rest) =
      (closing? rest).map fun (inner, after) => (stretch ++ inner, after) := by
  cases written with
  | plain inert _ => exact closing?_cons_inert inert rest
  | @escaped letter digits notBreak inert _ =>
      rw [List.cons_append, List.cons_append, closing?_cons_escaped notBreak,
        closing?_append_inert inert, Option.map_map]
      rfl

/-- A written text is closed by the first bare quote behind it. -/
theorem closing?_escape (text rest : List Char) :
    closing? (text.flatMap escape ++ '"' :: rest) = some (text.flatMap escape ++ ['"'], rest) := by
  induction text with
  | nil => rfl
  | cons c text ih =>
      rw [List.flatMap_cons, List.append_assoc, closing?_append_written (written_escape c), ih]
      simp

end Lexeme

/-- The written form of a text is a word. -/
theorem isWord_quoteChars (text : List Char) : IsWord (quoteChars text) :=
  .quoted (Lexeme.closing?_escape text [])

theorem Written.no_lineBreak {c : Char} {stretch : List Char} (written : Written c stretch) :
    ∀ other ∈ stretch, (other != '\n') = true := by
  have notBreak {c : Char} (inert : isInert c = true) : (c != '\n') = true := by
    simp only [isInert, Bool.and_eq_true] at inert
    exact inert.2
  intro other member
  cases written with
  | plain inert _ =>
      rw [List.mem_singleton.mp member]
      exact notBreak inert
  | escaped letterFits digitsInert _ =>
      rcases List.mem_cons.mp member with rfl | member
      · decide
      · rcases List.mem_cons.mp member with rfl | member
        · exact bne_iff_ne.mpr letterFits
        · exact notBreak (digitsInert other member)

/-- The written form of a text has the class of quoted tokens. -/
theorem isQuoted_quoteChars (text : List Char) : isQuoted (quoteChars text) = true := by
  have oneLine : ∀ c ∈ text.flatMap escape, (c != '\n') = true := by
    intro c member
    obtain ⟨original, _, inEscape⟩ := List.mem_flatMap.mp member
    exact (written_escape original).no_lineBreak c inEscape
  rw [quoteChars, List.cons_append]
  simp only [isQuoted, List.getLast?_concat, List.all_append, List.all_eq_true.mpr oneLine]
  decide

namespace Text.Literal

/-- A written character is read back, and reading goes on behind it. -/
theorem body_append_written {c : Char} {stretch : List Char} (written : Written c stretch)
    (offset : Nat) (rest : List Char) :
    ∃ behind, body offset (stretch ++ rest) =
      (body behind rest).map fun (chars, next, after) => (c :: chars, next, after) := by
  cases written with
  | plain inert notControl =>
      simp only [isInert, Bool.and_eq_true, bne_iff_ne] at inert
      refine ⟨offset + c.utf8Size, ?_⟩
      rw [List.singleton_append, body, if_neg inert.1.1, if_neg inert.1.2, if_neg notControl]
      cases body (offset + c.utf8Size) rest <;> rfl
  | @escaped letter digits _ _ reads =>
      obtain ⟨behind, escapedEq⟩ := reads (offset + 1) rest
      refine ⟨behind, ?_⟩
      rw [List.cons_append, body, if_neg (by decide), if_pos rfl]
      split
      · rename_i refused
        rw [escapedEq] at refused
        cases refused
      · rename_i step
        rw [escapedEq] at step
        cases step
        cases body behind rest <;> rfl

/-- The body of a written text is read back up to its closing quote. -/
theorem body_escape (text rest : List Char) (offset : Nat) :
    ∃ next, body offset (text.flatMap escape ++ '"' :: rest) = .ok (text, next, rest) := by
  induction text generalizing offset with
  | nil =>
      refine ⟨offset + 1, ?_⟩
      rw [List.flatMap_nil, List.nil_append, body]
      rfl
  | cons c text ih =>
      rw [List.flatMap_cons, List.append_assoc]
      obtain ⟨behind, first⟩ := body_append_written (written_escape c) offset
        (text.flatMap escape ++ '"' :: rest)
      obtain ⟨next, others⟩ := ih behind
      rw [first, others]
      exact ⟨next, rfl⟩

/-- A quoted text is read back. -/
theorem read_quote (text : String) : read (quote text) = .ok text := by
  obtain ⟨next, bodyEq⟩ := body_escape text.toList [] 1
  simp [read, quoteChars, bodyEq, bind, Except.bind]

end Text.Literal

end Fieldmap
