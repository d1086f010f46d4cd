import Fieldmap.Proofs.CharClass
import Fieldmap.Token.Lexeme

/-!
# Where lexemes stand

The lexeme at the head of a text is found by running through the text. This module
says what it is without running: a stretch with the shape of its kind that stands
apart from the character in front of it and from the text behind it.
-/

namespace Fieldmap

open Text

namespace Lexeme

/-- A lexeme behind a character `before` and in front of a text `after`. -/
inductive Stands (before : Option Char) : Lexeme → List Char → Prop where
  | quoted {inner after : List Char} : closing? inner = some (inner, []) →
      Stands before ⟨.quoted, '"' :: inner⟩ after
  | signed {digits after : List Char} : isUnsignedNumber digits →
      after.head?.any isNumberRest = false →
      Stands before ⟨.number, '-' :: digits⟩ after
  | unsigned {digits after : List Char} : isUnsignedNumber digits →
      touchesWord before = false → after.head?.any isNumberRest = false →
      Stands before ⟨.number, digits⟩ after
  | mark {after : List Char} (mark : Mark) : Stands before ⟨.mark, [mark.char]⟩ after
  | identifier {text after : List Char} : isIdentifier text →
      touchesWord before = false → touchesWord after.head? = false →
      Stands before ⟨.identifier, text⟩ after
  | comment {line after : List Char} : (∀ c ∈ line, (c != '\n') = true) →
      after.head?.any (· != '\n') = false →
      Stands before ⟨.comment, '/' :: '/' :: line⟩ after
  | blank {c : Char} {run after : List Char} : isBlank c → (∀ c ∈ run, isBlank c = true) →
      after.head?.any isBlank = false →
      Stands before ⟨.blank, c :: run⟩ after

/-! ## Closing quotes -/

theorem closing?_cons_plain {c : Char} {rest : List Char} (notQuote : c ≠ '"')
    (notBreak : c ≠ '\n') (notEscape : c ≠ '\\') :
    closing? (c :: rest) = (closing? rest).map fun (inner, after) => (c :: inner, after) := by
  rw [closing?] <;> grind

theorem closing?_cons_escaped {c : Char} {rest : List Char} (notBreak : c ≠ '\n') :
    closing? ('\\' :: c :: rest) =
      (closing? rest).map fun (inner, after) => ('\\' :: c :: inner, after) := by
  rw [closing?]
  exact notBreak

/-- Whether a quote closes does not depend on what follows it. -/
theorem closing?_append_eq {text inner after : List Char}
    (closed : closing? text = some (inner, after)) (other : List Char) :
    closing? (inner ++ other) = some (inner, other) := by
  induction text using closing?.induct generalizing inner after with
  | case1 | case3 | case4 | case5 => simp [closing?] at closed
  | case2 rest =>
      simp only [closing?, Option.some.injEq, Prod.mk.injEq] at closed
      rcases closed with ⟨rfl, rfl⟩
      rfl
  | case6 c rest notBreak ih =>
      rw [closing?_cons_escaped notBreak] at closed
      simp only [Option.map_eq_some_iff, Prod.mk.injEq] at closed
      rcases closed with ⟨⟨inner, after⟩, closed, rfl, rfl⟩
      simp [closing?_cons_escaped notBreak, ih closed]
  | case7 c rest notQuote notBreak notEnd notEscapedBreak notEscape ih =>
      have plain : c ≠ '\\' := by
        intro equal
        cases rest with
        | nil => exact notEnd equal rfl
        | cons next rest => exact notEscape next rest equal rfl
      rw [closing?_cons_plain notQuote notBreak plain] at closed
      simp only [Option.map_eq_some_iff, Prod.mk.injEq] at closed
      rcases closed with ⟨⟨inner, after⟩, closed, rfl, rfl⟩
      simp [closing?_cons_plain notQuote notBreak plain, ih closed]

/-! ## The first lexeme -/

theorem isNumberRest_of_mem {digits : List Char} (number : isUnsignedNumber digits) :
    ∀ c ∈ digits, isNumberRest c = true := by
  cases digits with
  | nil => cases number
  | cons digit rest =>
      simp only [isUnsignedNumber, Bool.and_eq_true, List.all_eq_true] at number
      intro c member
      rcases List.mem_cons.mp member with isDigit | inRest
      · subst isDigit
        simp [isNumberRest, isWordChar_of_isDecimalDigit number.1]
      · exact number.2 c inRest

/-- Where no word goes on, no identifier does. -/
theorem head?_not_isIdentifierRest {after : List Char}
    (stop : touchesWord after.head? = false) : after.head?.any isIdentifierRest = false := by
  cases after with
  | nil => rfl
  | cons next _ =>
      have outside : isWordChar next = false := by simpa [touchesWord] using stop
      rw [List.head?_cons, Option.any_some, Bool.eq_false_iff]
      intro continues
      rw [isWordChar_of_isIdentifierRest continues] at outside
      cases outside

/-- A lexeme that stands at the head of a text is found there. -/
theorem Stands.first?_eq {before : Option Char} {lexeme : Lexeme} {after : List Char}
    (stands : Stands before lexeme after) :
    first? before (lexeme.text ++ after) = some (lexeme, after) := by
  cases stands with
  | quoted closed => simp [first?, closing?_append_eq closed]
  | @signed digits _ number stop =>
      cases digits with
      | nil => cases number
      | cons digit rest =>
          have inside := isNumberRest_of_mem number
          have taken := takeWhile_append_stop inside stop
          have dropped := dropWhile_append_stop inside stop
          simp only [isUnsignedNumber, Bool.and_eq_true] at number
          rw [List.cons_append] at taken dropped
          simp [first?, number.1, taken, dropped]
  | @unsigned digits _ number apart stop =>
      cases digits with
      | nil => cases number
      | cons digit rest =>
          simp only [isUnsignedNumber, Bool.and_eq_true, List.all_eq_true] at number
          have notQuote : digit ≠ '"' := ne_of_class number.1 (by decide)
          have notMinus : digit ≠ '-' := ne_of_class number.1 (by decide)
          simp [first?, notQuote, notMinus, number.1, apart,
            takeWhile_append_stop number.2 stop, dropWhile_append_stop number.2 stop]
  | mark mark =>
      have notDigit := endsWord.not_isDecimalDigit mark.endsWord_char
      have notQuote : mark.char ≠ '"' := by cases mark <;> decide
      have notMinus : mark.char ≠ '-' := by cases mark <;> decide
      simp [first?, notQuote, notMinus, notDigit]
  | @identifier text _ identifier apart stop =>
      cases text with
      | nil => cases identifier
      | cons c rest =>
          simp only [isIdentifier, Bool.and_eq_true, List.all_eq_true] at identifier
          rcases identifier with ⟨start, inside⟩
          have notQuote : c ≠ '"' := ne_of_class start (by decide)
          have notMinus : c ≠ '-' := ne_of_class start (by decide)
          have restStop := head?_not_isIdentifierRest stop
          simp [first?, notQuote, notMinus, isDecimalDigit_of_isIdentifierStart start,
            Mark.ofChar?_of_isIdentifierStart start, start, apart,
            takeWhile_append_stop inside restStop, dropWhile_append_stop inside restStop, stop]
  | @comment line _ oneLine stop =>
      have taken := takeWhile_append_stop oneLine stop
      have dropped := dropWhile_append_stop oneLine stop
      have notDigit : isDecimalDigit '/' = false := by decide
      have notMark : Mark.ofChar? '/' = none := by decide
      have notStart : isIdentifierStart '/' = false := by decide
      simp [first?, notDigit, notMark, notStart, taken, dropped]
  | @blank c run _ blank inside stop =>
      have ends := endsWord_of_isBlank blank
      have notQuote : c ≠ '"' := ne_of_class blank (by decide)
      have notMinus : c ≠ '-' := ne_of_class blank (by decide)
      have notSlash : c ≠ '/' := ne_of_class blank (by decide)
      simp [first?, notQuote, notMinus, notSlash, endsWord.not_isDecimalDigit ends,
        Mark.ofChar?_of_isBlank blank, endsWord.not_isIdentifierStart ends, blank,
        takeWhile_append_stop inside stop, dropWhile_append_stop inside stop]

/-- A quoted text closes by itself. -/
theorem closing?_self {text inner after : List Char}
    (closed : closing? text = some (inner, after)) : closing? inner = some (inner, []) := by
  have alone := closing?_append_eq closed []
  rwa [List.append_nil] at alone

/-- A lexeme found at the head of a text stands there. -/
theorem stands_of_first? {before : Option Char} {text after : List Char} {lexeme : Lexeme}
    (found : first? before text = some (lexeme, after)) : Stands before lexeme after := by
  have inside (property : Char → Bool) (text : List Char) :
      ∀ c ∈ text.takeWhile property, property c = true :=
    List.all_eq_true.mp (List.all_takeWhile)
  cases text with
  | nil => cases found
  | cons c rest =>
      simp only [first?] at found
      split at found
      case isTrue isQuote =>
        subst isQuote
        simp only [Option.map_eq_some_iff, Prod.mk.injEq] at found
        rcases found with ⟨⟨inner, after⟩, closed, rfl, rfl⟩
        exact .quoted (closing?_self closed)
      split at found
      case isTrue isMinus =>
        subst isMinus
        split at found
        case isFalse => cases found
        rename_i startsDigit
        cases found
        cases rest with
        | nil => cases startsDigit
        | cons digit rest =>
            have isDigit : isDecimalDigit digit = true := startsDigit
            refine .signed ?_ (head?_dropWhile_stop _ _)
            have continues : isNumberRest digit = true := by
              simp [isNumberRest, isWordChar_of_isDecimalDigit isDigit]
            simp [isUnsignedNumber, continues, isDigit]
      split at found
      case isTrue isDigit =>
        split at found
        case isTrue => cases found
        rename_i apart
        cases found
        refine .unsigned ?_ (by simpa using apart) (head?_dropWhile_stop _ _)
        simp [isUnsignedNumber, isDigit]
      split at found
      case isTrue isMark =>
        obtain ⟨mark, isMark⟩ := Option.isSome_iff_exists.mp isMark
        cases found
        rw [← Mark.ofChar?_eq_some_iff.mp isMark]
        exact .mark mark
      split at found
      case isTrue start =>
        split at found
        case isTrue => cases found
        rename_i apart
        simp only [Bool.or_eq_true, not_or, Bool.not_eq_true] at apart
        cases found
        refine .identifier ?_ apart.1 apart.2
        simp [isIdentifier, start]
      split at found
      case isTrue isSlash =>
        subst isSlash
        split at found
        case isFalse => cases found
        rename_i isComment
        cases rest with
        | nil => cases isComment
        | cons second rest =>
            cases isComment
            cases found
            exact .comment (inside _ rest) (head?_dropWhile_stop _ _)
      split at found
      case isTrue blank =>
        cases found
        exact .blank blank (inside _ rest) (head?_dropWhile_stop _ _)
      cases found

/-- The first lexeme of a text is the one that stands at its head. -/
theorem first?_eq_some_iff {before : Option Char} {text after : List Char} {lexeme : Lexeme} :
    first? before text = some (lexeme, after) ↔
      text = lexeme.text ++ after ∧ Stands before lexeme after := by
  constructor
  · intro found
    refine ⟨?_, stands_of_first? found⟩
    cases text with
    | nil => cases found
    | cons c rest =>
        obtain ⟨inner, textEq, rfl⟩ := first?_append found
        rw [textEq, List.cons_append]
  · intro standsFirst
    rcases standsFirst with ⟨rfl, stands⟩
    exact stands.first?_eq

end Lexeme

end Fieldmap
