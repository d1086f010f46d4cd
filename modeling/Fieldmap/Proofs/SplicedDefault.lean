import Fieldmap.Proofs.QuotedLiteral
import Fieldmap.Proofs.TextTiling
import Fieldmap.Traced

/-!
# Defaults spliced into an entry

A default is copied into its entry without quotes, whatever it holds. The token that is
then read as the default may be quite another text: it may be made of a part of the
default only, or a comment may hide the rest of the entry. It is never a literal of the
default, however. A literal is longer than the text that it denotes, and a quoted text
that begins within the default ends within it.
-/

namespace Fieldmap

open Text

/-! ## Literals and what they denote -/

namespace Text.Literal

/-- Every character between the quotes takes at least one of the literal's. -/
theorem length_of_body {offset behind : Nat} {text chars rest : List Char}
    (read : body offset text = .ok (chars, behind, rest)) :
    chars.length + rest.length < text.length := by
  induction offset, text using body.induct generalizing chars behind rest with
  | case1 offset =>
      rw [body] at read
      cases read
  | case2 offset text =>
      rw [body, if_pos rfl] at read
      cases read
      simp
  | case3 offset text error escaping _ =>
      rw [body, if_neg (by decide), if_pos rfl] at read
      split at read
      · cases read
      · rename_i step escaped
        rw [escaping] at escaped
        cases escaped
  | case4 offset text step escaping _ ih =>
      have shorter := escaped_length escaping
      rw [body, if_neg (by decide), if_pos rfl] at read
      split at read
      · cases read
      · rename_i found escaped
        rw [escaping] at escaped
        cases escaped
        obtain ⟨⟨inner, next, after⟩, inside, read⟩ := exists_of_bind_eq_ok read
        cases read
        have further := ih inside
        simp only [List.length_cons]
        omega
  | case5 offset c text notQuote notEscape control =>
      rw [body, if_neg notQuote, if_neg notEscape, if_pos control] at read
      cases read
  | case6 offset c text notQuote notEscape plain ih =>
      rw [body, if_neg notQuote, if_neg notEscape, if_neg plain] at read
      obtain ⟨⟨inner, next, after⟩, inside, read⟩ := exists_of_bind_eq_ok read
      cases read
      have further := ih inside
      simp only [List.length_cons]
      omega

/-- A literal is longer than what it denotes, by its quotes at least. -/
theorem length_of_read {literal value : String} (read : Literal.read literal = .ok value) :
    value.toList.length + 1 < literal.toList.length := by
  obtain ⟨⟨chars, offset, rest⟩, inside, read⟩ := exists_of_bind_eq_ok read
  have shorter := length_of_body inside
  rw [List.length_drop] at shorter
  simp only at read
  split at read
  · cases read
    rw [String.toList_ofList]
    omega
  · cases read

end Text.Literal

/-- A quoted text ends in a quote and stays on one line. -/
theorem closes_of_isQuoted {text : List Char} (quoted : isQuoted text = true) :
    text.getLast? = some '"' ∧ '\n' ∉ text := by
  unfold isQuoted at quoted
  split at quoted
  · rename_i inner
    simp only [Bool.and_eq_true, beq_iff_eq, List.all_eq_true, bne_iff_ne] at quoted
    rcases quoted with ⟨last, oneLine⟩
    constructor
    · rw [List.getLast?_cons, last]
      rfl
    · intro member
      rcases List.mem_cons.mp member with same | member
      · cases same
      · exact oneLine '\n' member rfl
  · cases quoted

/-! ## Behind a spliced text -/

/-- What stands behind the default in an entry. A default that runs into it takes no
more than the parenthesis and the comma, or it takes a line feed too. -/
theorem append_eq_entryEnd {value text after rest : List Char}
    (oneLine : '\n' ∉ text) (textEq : text ++ after = value ++ ')' :: ',' :: '\n' :: rest) :
    (∃ others, value = text ++ others ∧ after = others ++ ')' :: ',' :: '\n' :: rest) ∨
      text = value ++ [')'] ∧ after = ',' :: '\n' :: rest ∨
      text = value ++ [')', ','] ∧ after = '\n' :: rest := by
  rcases List.append_eq_append_iff.mp textEq with ⟨others, valueEq, afterEq⟩ | ⟨more, rfl, endEq⟩
  · exact .inl ⟨others, valueEq, afterEq⟩
  · match more with
    | [] => exact .inl ⟨[], by simp, by simpa using endEq.symm⟩
    | [first] =>
        rw [List.singleton_append, List.cons.injEq] at endEq
        rcases endEq with ⟨rfl, endEq⟩
        exact .inr (.inl ⟨rfl, endEq.symm⟩)
    | [first, second] =>
        simp only [List.cons_append, List.nil_append, List.cons.injEq] at endEq
        rcases endEq with ⟨rfl, rfl, endEq⟩
        exact .inr (.inr ⟨rfl, endEq.symm⟩)
    | first :: second :: third :: more =>
        simp only [List.cons_append, List.cons.injEq] at endEq
        rcases endEq with ⟨rfl, rfl, rfl, -⟩
        simp at oneLine

/-- A quoted text that begins where a default does ends within it. -/
theorem length_le_of_isQuoted {value text after rest : List Char} (quoted : isQuoted text = true)
    (textEq : text ++ after = value ++ ')' :: ',' :: '\n' :: rest) :
    text.length ≤ value.length := by
  obtain ⟨last, oneLine⟩ := closes_of_isQuoted quoted
  rcases append_eq_entryEnd oneLine textEq with ⟨others, valueEq, -⟩ | ⟨textEq, -⟩ | ⟨textEq, -⟩
  · rw [valueEq, List.length_append]
    exact Nat.le_add_right _ _
  · rw [textEq, List.getLast?_concat] at last
    cases last
  · rw [textEq, List.append_cons, List.getLast?_concat] at last
    cases last

/-- A text that stops short of the parenthesis behind a default lies within the default. -/
theorem append_eq_of_not_mem {value text after rest : List Char} (outside : ')' ∉ text)
    (textEq : text ++ after = value ++ ')' :: rest) :
    ∃ others, value = text ++ others ∧ after = others ++ ')' :: rest := by
  rcases List.append_eq_append_iff.mp textEq with ⟨others, valueEq, afterEq⟩ | ⟨more, rfl, endEq⟩
  · exact ⟨others, valueEq, afterEq⟩
  · cases more with
    | nil => exact ⟨[], by simp, by simpa using endEq.symm⟩
    | cons first more =>
        rw [List.cons_append, List.cons.injEq] at endEq
        rcases endEq with ⟨rfl, -⟩
        simp at outside

/-- A single mark is no quoted text. -/
theorem Mark.not_isQuoted_text (mark : Mark) : isQuoted mark.text.toList = false := by
  cases mark <;> rfl

/-- The first token of the next line of a block is a mark. -/
theorem exists_words_nextLine {gap : List Char} (gapBlank : ∀ c ∈ gap, isBlank c = true)
    (before : Option Char) (mark : Mark) (more : List Char) :
    ∃ others, (Lexemes.ofChars before ('\n' :: (gap ++ mark.char :: more))).words =
      mark.text :: others := by
  have blank : ∀ c ∈ '\n' :: gap, isBlank c = true :=
    List.forall_mem_cons.mpr ⟨isBlank_lineFeed, gapBlank⟩
  have stands : Lexeme.Stands (('\n' :: gap).getLast?.or before) ⟨.mark, [mark.char]⟩ more :=
    .mark mark
  have whole := (Lexemes.continues_blanks blank before (mark.char :: more)).trans
    (Lexemes.continues_token stands rfl)
  exact ⟨_, whole.words_eq⟩

/-- If the first token behind the comma in front of a default is quoted, it is no longer
than the default. -/
theorem length_of_spliced {before : Option Char} {value gap more : List Char} {mark : Mark}
    (gapBlank : ∀ c ∈ gap, isBlank c = true) {word : String} {others : List String}
    (wordsEq : (Lexemes.ofChars before
      (value ++ ')' :: ',' :: '\n' :: (gap ++ mark.char :: more))).words = word :: others)
    (quoted : isQuoted word.toList = true) : word.toList.length ≤ value.length := by
  -- Each run of blanks and each comment in front leaves less of the default.
  induction lengthEq : value.length using Nat.strongRecOn generalizing before value with
  | ind length ih =>
      subst lengthEq
      cases found : Lexeme.first? before
          (value ++ ')' :: ',' :: '\n' :: (gap ++ mark.char :: more)) with
      | none =>
          rw [Lexemes.ofChars_of_none found] at wordsEq
          cases wordsEq
      | some first =>
          rcases first with ⟨lexeme, after⟩
          obtain ⟨textEq, stands⟩ := Lexeme.first?_eq_some_iff.mp found
          have shorter {rest : List Char} (valueEq : value = lexeme.text ++ rest) :
              rest.length < value.length := by
            have filled := List.length_pos_of_ne_nil stands.text_ne_nil
            rw [valueEq, List.length_append]
            omega
          rw [textEq] at wordsEq
          cases isToken : lexeme.isToken with
          | true =>
              rw [(Lexemes.continues_token stands isToken).words_eq, List.singleton_append,
                List.cons.injEq] at wordsEq
              rcases wordsEq with ⟨rfl, -⟩
              rw [String.toList_ofList] at quoted ⊢
              exact length_le_of_isQuoted quoted textEq.symm
          | false =>
              rw [(Lexemes.continues_layout stands isToken).words_eq, List.nil_append] at wordsEq
              cases stands.isLayout isToken with
              | @blanks run _ _ inside _ =>
                  have outside : ')' ∉ run := fun member =>
                    absurd (inside _ member) (by decide)
                  obtain ⟨rest, valueEq, rfl⟩ := append_eq_of_not_mem outside textEq.symm
                  have within := ih _ (shorter valueEq) wordsEq rfl
                  exact within.trans (shorter valueEq).le
              | @comment line _ lineOnly stops =>
                  have commentOnly : '\n' ∉ '/' :: '/' :: line := by simp [lineOnly]
                  rcases append_eq_entryEnd commentOnly textEq.symm with ⟨rest, valueEq, rfl⟩ |
                    ⟨-, rfl⟩ | ⟨-, rfl⟩
                  · have within := ih _ (shorter valueEq) wordsEq rfl
                    exact within.trans (shorter valueEq).le
                  · rcases stops with empty | atBreak
                    · cases empty
                    · cases atBreak
                  · obtain ⟨behind, nextLine⟩ := exists_words_nextLine gapBlank _ mark more
                    rw [nextLine, List.cons.injEq] at wordsEq
                    rcases wordsEq with ⟨rfl, -⟩
                    rw [mark.not_isQuoted_text] at quoted
                    cases quoted

end Fieldmap
