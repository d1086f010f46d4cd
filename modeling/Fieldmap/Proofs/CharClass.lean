import Fieldmap.Text.Blank
import Fieldmap.Text.Identifier
import Fieldmap.Text.Number
import Fieldmap.Token.Mark

/-!
# How the character classes lie

Identifier characters are ASCII word characters. Blanks, marks and the characters
that open a quoted text, a comment or a signed number lie outside of every class
that continues an identifier or a number, so a word ends in front of them. A run of a
class is cut off where a character outside of the class follows.
-/

namespace Fieldmap

/-! ## Longest runs -/

/-- A run of a class is as long as possible when no character of the class follows. -/
theorem takeWhile_append_stop {property : Char → Bool} {run after : List Char}
    (inside : ∀ c ∈ run, property c = true) (stop : after.head?.any property = false) :
    (run ++ after).takeWhile property = run := by
  rw [List.takeWhile_append_of_pos inside]
  cases after with
  | nil => simp
  | cons c rest =>
      have outside : property c = false := by simpa using stop
      simp [outside]

theorem dropWhile_append_stop {property : Char → Bool} {run after : List Char}
    (inside : ∀ c ∈ run, property c = true) (stop : after.head?.any property = false) :
    (run ++ after).dropWhile property = after := by
  rw [List.dropWhile_append_of_pos inside]
  cases after with
  | nil => rfl
  | cons c rest =>
      have outside : property c = false := by simpa using stop
      simp [outside]

/-- What is left behind a longest run does not continue it. -/
theorem head?_dropWhile_stop (property : Char → Bool) (text : List Char) :
    (text.dropWhile property).head?.any property = false := by
  have outside := List.head?_dropWhile_not property text
  cases left : (text.dropWhile property).head? with
  | none => rfl
  | some c => simpa [left] using outside

namespace Text

/-! ## Spans apart from each other -/

namespace Span

/-- The ranges have no code point in common. -/
def apart (left right : Span) : Bool :=
  decide (left.last < right.first) || decide (right.last < left.first)

theorem not_contains_of_apart {left right : Span} {code : Nat}
    (apart : left.apart right = true) (member : left.contains code = true) :
    ¬ right.contains code = true := by
  simp only [Span.apart, Bool.or_eq_true, decide_eq_true_eq] at apart
  rw [contains_eq_true] at member ⊢
  omega

end Span

/-- A table whose ranges all lie apart from those of another covers none of its
code points. -/
theorem not_covers_of_apart {left right : List Span} {code : Nat}
    (apart : (left.all fun span => right.all span.apart) = true)
    (member : covers left code = true) : covers right code = false := by
  rw [Bool.eq_false_iff]
  intro covered
  simp only [covers, List.any_eq_true, List.all_eq_true] at apart member covered
  rcases member with ⟨span, spanMem, inSpan⟩
  rcases covered with ⟨other, otherMem, inOther⟩
  exact Span.not_contains_of_apart (apart span spanMem other otherMem) inSpan inOther

/-! ## ASCII -/

/-- A character of a class is none that the class leaves out. -/
theorem ne_of_class {property : Char → Bool} {c other : Char} (holds : property c = true)
    (fails : property other = false) : c ≠ other := by
  intro same
  subst same
  rw [holds] at fails
  cases fails


/-- What holds of the first 128 characters one by one holds of every ASCII character. -/
theorem forall_ascii (property : Char → Prop)
    (holds : ∀ code : Fin 128, property (Char.ofNat code)) {c : Char} (ascii : c.toNat < 128) :
    property c := by
  have named := holds ⟨c.toNat, ascii⟩
  rwa [Char.ofNat_toNat] at named

theorem isIdentifierRest_ascii {c : Char} (rest : isIdentifierRest c = true) :
    c.toNat < 128 := by
  change c.val.toNat < 128
  unfold isIdentifierRest Char.isAlphanum Char.isAlpha Char.isUpper Char.isLower Char.isDigit
    at rest
  simp only [Bool.or_eq_true, Bool.and_eq_true, decide_eq_true_eq, beq_iff_eq, ge_iff_le,
    UInt32.le_iff_toNat_le] at rest
  rcases rest with letterOrDigit | rfl
  · change ((65 ≤ c.val.toNat ∧ c.val.toNat ≤ 90) ∨ (97 ≤ c.val.toNat ∧ c.val.toNat ≤ 122)) ∨
      (48 ≤ c.val.toNat ∧ c.val.toNat ≤ 57) at letterOrDigit
    omega
  · decide

theorem isWordChar_of_isIdentifierRest {c : Char} (rest : isIdentifierRest c = true) :
    isWordChar c = true := by
  simpa [isWordChar, isIdentifierRest_ascii rest, isIdentifierRest] using rest

theorem isDecimalDigit_of_isIdentifierStart {c : Char} (start : isIdentifierStart c = true) :
    isDecimalDigit c = false := by
  have ascii := isIdentifierRest_ascii (isIdentifierRest_of_isIdentifierStart start)
  exact forall_ascii (fun c => isIdentifierStart c = true → isDecimalDigit c = false)
    (by decide) ascii start

/-- An identifier holds only characters that continue one. -/
theorem not_mem_of_isIdentifier {text : List Char} (identifier : isIdentifier text) {c : Char}
    (outside : isIdentifierRest c = false) : c ∉ text := by
  intro member
  cases text with
  | nil => cases identifier
  | cons first rest =>
      simp only [isIdentifier, Bool.and_eq_true, List.all_eq_true] at identifier
      have inside : isIdentifierRest c = true := by
        rcases List.mem_cons.mp member with rfl | inRest
        · exact isIdentifierRest_of_isIdentifierStart identifier.1
        · exact identifier.2 c inRest
      rw [outside] at inside
      cases inside

/-! ## Characters that end a word -/

/-- A character that continues neither an identifier nor a number. -/
def endsWord (c : Char) : Bool :=
  !isNumberRest c

theorem endsWord.not_isNumberRest {c : Char} (ends : endsWord c = true) :
    isNumberRest c = false := by
  simpa [endsWord] using ends

theorem endsWord.not_isWordChar {c : Char} (ends : endsWord c = true) :
    isWordChar c = false := by
  have outside := endsWord.not_isNumberRest ends
  simp only [isNumberRest, Bool.or_eq_false_iff] at outside
  exact outside.1

theorem endsWord.not_isIdentifierRest {c : Char} (ends : endsWord c = true) :
    isIdentifierRest c = false := by
  rw [Bool.eq_false_iff]
  intro rest
  have word := isWordChar_of_isIdentifierRest rest
  rw [endsWord.not_isWordChar ends] at word
  cases word

theorem endsWord.not_isIdentifierStart {c : Char} (ends : endsWord c = true) :
    isIdentifierStart c = false := by
  rw [Bool.eq_false_iff]
  intro start
  have rest := isIdentifierRest_of_isIdentifierStart start
  rw [endsWord.not_isIdentifierRest ends] at rest
  cases rest

theorem endsWord.not_isDecimalDigit {c : Char} (ends : endsWord c = true) :
    isDecimalDigit c = false := by
  rw [Bool.eq_false_iff]
  intro digit
  have word := isWordChar_of_isDecimalDigit digit
  rw [endsWord.not_isWordChar ends] at word
  cases word

theorem endsWord_of_isBlank {c : Char} (blank : isBlank c = true) : endsWord c = true := by
  rcases Nat.lt_or_ge c.toNat 128 with ascii | beyond
  · exact forall_ascii (fun c => isBlank c = true → endsWord c = true) (by decide) ascii blank
  · have different : c ≠ '.' := by
      intro same
      subst same
      revert beyond
      decide
    have outside : covers wordSpans c.toNat = false :=
      not_covers_of_apart (by decide +kernel) blank
    simp [endsWord, isNumberRest, isWordChar, Nat.not_lt.mpr beyond, outside, different]

theorem isBlank_space : isBlank ' ' = true := by
  decide

theorem isBlank_lineFeed : isBlank '\n' = true := by
  decide

end Text

namespace Mark

open Text

theorem endsWord_char (mark : Mark) : endsWord mark.char = true := by
  cases mark <;> decide

theorem isBlank_char (mark : Mark) : isBlank mark.char = false := by
  cases mark <;> decide

/-- No mark stands for a character that opens a lexeme of another kind. -/
theorem ofChar?_eq_none {c : Char} (outside : ∀ mark : Mark, mark.char ≠ c) :
    ofChar? c = none := by
  cases found : ofChar? c with
  | none => rfl
  | some mark => exact absurd (ofChar?_eq_some_iff.mp found) (outside mark)

theorem ofChar?_of_isIdentifierStart {c : Char} (start : isIdentifierStart c = true) :
    ofChar? c = none := by
  apply ofChar?_eq_none
  intro mark markEq
  subst markEq
  rw [endsWord.not_isIdentifierStart mark.endsWord_char] at start
  cases start

theorem ofChar?_of_isBlank {c : Char} (blank : isBlank c = true) : ofChar? c = none := by
  apply ofChar?_eq_none
  intro mark markEq
  subst markEq
  rw [mark.isBlank_char] at blank
  cases blank

end Mark

end Fieldmap
