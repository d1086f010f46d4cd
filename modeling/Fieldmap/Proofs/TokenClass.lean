import Fieldmap.Proofs.CharClass
import Fieldmap.Spec.Reader

/-!
# Classes of tokens

The first character of a token settles which class it can have. A token therefore
has at most one class, and the order in which a reader asks for classes does not
matter. Keywords are identifiers.
-/

namespace Fieldmap

open Text

namespace TokenClass

/-- The only class that a text with this first character can have. -/
def ofHead? (c : Char) : Option TokenClass :=
  if c = '"' then some .quoted
  else if c = '-' then some .number
  else if isDecimalDigit c then some .number
  else
    match Mark.ofChar? c with
    | some found => some (.mark found)
    | none => if isIdentifierStart c then some .identifier else none

theorem ofHead?_of_isIdentifierStart {c : Char} (start : isIdentifierStart c = true) :
    ofHead? c = some .identifier := by
  have notQuote : c ≠ '"' := ne_of_class start (by decide)
  have notMinus : c ≠ '-' := ne_of_class start (by decide)
  simp [ofHead?, notQuote, notMinus, isDecimalDigit_of_isIdentifierStart start,
    Mark.ofChar?_of_isIdentifierStart start, start]

theorem ofHead?_of_isDecimalDigit {c : Char} (digit : isDecimalDigit c = true) :
    ofHead? c = some .number := by
  have notQuote : c ≠ '"' := ne_of_class digit (by decide)
  simp [ofHead?, notQuote, digit]

theorem ofHead?_of_accepts {c : Char} {rest : List Char} {tokenClass : TokenClass}
    (accepted : tokenClass.accepts (c :: rest) = true) : ofHead? c = some tokenClass := by
  cases tokenClass with
  | identifier =>
      simp only [accepts, isIdentifier, Bool.and_eq_true] at accepted
      exact ofHead?_of_isIdentifierStart accepted.1
  | number =>
      simp only [accepts] at accepted
      unfold isNumber at accepted
      split at accepted
      · rename_i digits equal
        cases equal
        decide
      · simp only [isUnsignedNumber, Bool.and_eq_true] at accepted
        exact ofHead?_of_isDecimalDigit accepted.1
  | quoted =>
      simp only [accepts] at accepted
      unfold isQuoted at accepted
      split at accepted
      · rename_i inner equal
        cases equal
        rfl
      · cases accepted
  | mark mark =>
      simp only [accepts, beq_iff_eq, List.cons.injEq] at accepted
      rcases accepted with ⟨rfl, _⟩
      cases mark <;> decide
  | endOfText => simp [accepts] at accepted

/-- Only the end of a specification has no text. -/
theorem eq_endOfText_of_accepts_nil {tokenClass : TokenClass}
    (accepted : tokenClass.accepts [] = true) : tokenClass = .endOfText := by
  cases tokenClass with
  | endOfText => rfl
  | _ => simp [accepts, isIdentifier, isNumber, isUnsignedNumber, isQuoted] at accepted

/-- A text has at most one class. -/
theorem accepts_unique {text : List Char} {left right : TokenClass}
    (leftAccepted : left.accepts text = true) (rightAccepted : right.accepts text = true) :
    left = right := by
  cases text with
  | nil =>
      rw [eq_endOfText_of_accepts_nil leftAccepted, eq_endOfText_of_accepts_nil rightAccepted]
  | cons c rest =>
      have same := (ofHead?_of_accepts leftAccepted).symm.trans (ofHead?_of_accepts rightAccepted)
      exact Option.some.inj same

end TokenClass

namespace Token

/-- A token of one class is of no other. -/
theorem is_eq_false {token : Token} {own : TokenClass} (is : token.is own = true)
    (other : TokenClass) (different : own ≠ other) : token.is other = false := by
  rw [Bool.eq_false_iff]
  intro isOther
  exact different (TokenClass.accepts_unique is isOther)

theorem is_endOfText_iff {token : Token} : token.is .endOfText = true ↔ token.text = "" := by
  simp [Token.is, TokenClass.accepts]

theorem isWord_iff {token : Token} {word : String} :
    token.isWord word = true ↔ token.text = word := by
  simp [isWord]

/-- A word that is an identifier is one in every token. -/
theorem is_identifier_of_isWord {token : Token} {word : String}
    (named : isIdentifier word.toList = true) (isWord : token.isWord word = true) :
    token.is .identifier = true := by
  rw [isWord_iff] at isWord
  simpa [Token.is, TokenClass.accepts, isWord] using named

end Token

theorem FieldType.isIdentifier_name (type : FieldType) :
    isIdentifier type.name.toList = true := by
  cases type <;> decide

theorem Spec.Item.isIdentifier_keyword (item : Item) :
    isIdentifier item.keyword.toList = true := by
  cases item <;> decide

theorem Spec.isIdentifier_recordKeyword : isIdentifier "record".toList = true := by
  decide

theorem Spec.isIdentifier_absentDefault : isIdentifier absentDefault.toList = true := by
  decide

end Fieldmap
