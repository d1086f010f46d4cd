import Fieldmap.Proofs.Pattern
import Fieldmap.Proofs.Respacing

/-!
# Lexemes and the classes of tokens

Texts are cut by the first characters of lexemes and by what stands next to them, while
a reader classes a token by its whole text. The two accounts agree: whatever is cut out
as a token has one class, layout has none, and a text of one class is cut into the one
token that it is.
-/

namespace Fieldmap

open Text

/-! ## Every token has one class -/

/-- A text that only separates tokens: a comment, or a run of blanks. -/
inductive LayoutText : List Char → Prop where
  | comment {line : List Char} : '\n' ∉ line → LayoutText ('/' :: '/' :: line)
  | blanks {run : List Char} : run ≠ [] → (∀ c ∈ run, isBlank c = true) → LayoutText run

/-- The class of a token and no other. -/
def Token.OnlyIs (token : Token) (own : TokenClass) : Prop :=
  ∀ tokenClass, token.is tokenClass = true ↔ tokenClass = own

theorem Token.onlyIs_of_is {token : Token} {own : TokenClass} (is : token.is own = true) :
    token.OnlyIs own := by
  intro tokenClass
  constructor
  · intro accepted
    exact TokenClass.accepts_unique accepted is
  · rintro rfl
    exact is

/-- No class begins with a blank. -/
theorem TokenClass.ofHead?_of_isBlank {c : Char} (blank : isBlank c = true) :
    ofHead? c = none := by
  have ends := endsWord_of_isBlank blank
  have notQuote : c ≠ '"' := ne_of_class blank (by decide)
  have notMinus : c ≠ '-' := ne_of_class blank (by decide)
  simp [ofHead?, notQuote, notMinus, endsWord.not_isDecimalDigit ends,
    Mark.ofChar?_of_isBlank blank, endsWord.not_isIdentifierStart ends]

/-- Layout belongs to no class, by its first character. -/
theorem LayoutText.not_accepts {text : List Char} (layout : LayoutText text)
    (tokenClass : TokenClass) : ¬ tokenClass.accepts text = true := by
  intro accepted
  cases layout with
  | comment =>
      have slash : TokenClass.ofHead? '/' = none := by decide
      rw [TokenClass.ofHead?_of_accepts accepted] at slash
      cases slash
  | blanks filled inside =>
      cases text with
      | nil => exact filled rfl
      | cons c rest =>
          have nothing := TokenClass.ofHead?_of_isBlank (inside c List.mem_cons_self)
          rw [TokenClass.ofHead?_of_accepts accepted] at nothing
          cases nothing

/-- What stands up to a closing quote stands on one line. -/
theorem Lexeme.lineFeed_not_mem_of_closing? {text inner after : List Char}
    (closed : closing? text = some (inner, after)) : '\n' ∉ inner := by
  induction text using closing?.induct generalizing inner after with
  | case1 | case3 | case4 | case5 => simp [closing?] at closed
  | case2 =>
      simp only [closing?, Option.some.injEq, Prod.mk.injEq] at closed
      rcases closed with ⟨rfl, rfl⟩
      decide
  | case6 c rest notBreak ih =>
      rw [closing?_cons_escaped notBreak] at closed
      simp only [Option.map_eq_some_iff, Prod.mk.injEq] at closed
      rcases closed with ⟨⟨inner, after⟩, closed, rfl, rfl⟩
      simp [Ne.symm notBreak, ih closed]
  | case7 c rest _ notBreak _ _ _ ih =>
      rw [closing?] at closed <;> try assumption
      simp only [Option.map_eq_some_iff, Prod.mk.injEq] at closed
      rcases closed with ⟨⟨inner, after⟩, closed, rfl, rfl⟩
      simp [Ne.symm notBreak, ih closed]

/-- A quoted lexeme is a quoted token. -/
theorem isQuoted_of_closing? {inner : List Char}
    (closed : Lexeme.closing? inner = some (inner, [])) : isQuoted ('"' :: inner) = true := by
  have oneLine := Lexeme.lineFeed_not_mem_of_closing? closed
  obtain ⟨body, rfl, _⟩ := Pattern.exists_takes_of_closing? closed
  simp only [isQuoted, List.getLast?_concat, beq_self_eq_true, Bool.true_and, List.all_eq_true,
    bne_iff_ne]
  intro c member same
  exact oneLine (same ▸ member)

/-- The text of a token has a class, and not the one of the end. -/
theorem IsTokenText.exists_accepts {word : String} (tokenText : IsTokenText word) :
    ∃ own : TokenClass, own ≠ .endOfText ∧ own.accepts word.toList = true := by
  cases tokenText with
  | word isWord =>
      generalize word.toList = chars at isWord
      cases isWord with
      | identifier identifier => exact ⟨.identifier, by decide, identifier⟩
      | number number => exact ⟨.number, by decide, number⟩
      | quoted closed => exact ⟨.quoted, by decide, isQuoted_of_closing? closed⟩
  | mark mark => exact ⟨.mark mark, by simp, by simp [TokenClass.accepts, Mark.text]⟩

/-- The tokens of a text are words and marks, and the empty one behind them. -/
theorem Token.exists_tokenTexts {text : String} {tokens : List Token}
    (cut : ofText text = .ok tokens) :
    ∃ body last, tokens = body ++ [last] ∧ last.text = "" ∧
      ∀ token ∈ body, IsTokenText token.text := by
  obtain ⟨body, last, rfl, empty, _⟩ := exists_ofText_eq cut
  obtain ⟨whole, tokensEq⟩ := ofText_eq_ok cut
  refine ⟨body, last, rfl, empty, ?_⟩
  have texts := congrArg (List.map Token.text) tokensEq
  rw [Lexemes.text_placedTokens, List.map_append, List.map_singleton, empty] at texts
  have bodyTexts := List.append_cancel_right texts
  intro token member
  have inWords := List.mem_map_of_mem (f := Token.text) member
  rw [bodyTexts] at inWords
  exact isTokenText_of_mem_words whole token.text inWords

/-! ## Every text of a class is one token -/

/-- The tokens of a text that is one token from end to end. -/
def Token.alone (word : String) : List Token :=
  [⟨word, ⟨1, 1⟩⟩, ⟨"", ⟨1, 1 + word.utf8ByteSize⟩⟩]

theorem IsWord.lineFeed_not_mem {word : List Char} (isWord : IsWord word) : '\n' ∉ word := by
  have inDigits {digits : List Char} (number : isUnsignedNumber digits = true) :
      '\n' ∉ digits := by
    intro member
    exact absurd (Lexeme.isNumberRest_of_mem number _ member) (by decide)
  cases isWord with
  | identifier identifier => exact not_mem_of_isIdentifier identifier (by decide)
  | number number =>
      unfold isNumber at number
      split at number
      · simpa using inDigits number
      · exact inDigits number
  | quoted closed => simpa using Lexeme.lineFeed_not_mem_of_closing? closed

/-- A text on one line ends as far from its start as it has bytes. -/
theorem Text.coordinates_of_lineFeed_not_mem {text : List Char} (oneLine : '\n' ∉ text) :
    coordinates text = ⟨1, 1 + byteLength text⟩ := by
  have wholeLine : lastLine text = text := by
    rw [lastLine, List.rtakeWhile_eq_self_iff]
    intro c member
    refine bne_iff_ne.mpr ?_
    rintro rfl
    exact oneLine member
  rw [coordinates, wholeLine, List.count_eq_zero_of_not_mem oneLine]

/-- A word by itself is one token. -/
theorem IsWord.ofText_eq {word : String} (isWord : IsWord word.toList) :
    Token.ofText word = .ok (Token.alone word) := by
  have single : ∃ kind, Lexeme.Stands none ⟨kind, word.toList⟩ [] ∧
      Lexeme.isToken ⟨kind, word.toList⟩ = true := isWord.stands nofun rfl
  obtain ⟨kind, stands, isToken⟩ := single
  have nothing (before : Option Char) : Lexemes.ofChars before [] = ⟨[], []⟩ := by
    rw [Lexemes.ofChars]
    rfl
  have cut := Lexemes.ofChars_append stands
  rw [List.append_nil, nothing] at cut
  have ending := Text.coordinates_of_lineFeed_not_mem isWord.lineFeed_not_mem
  rw [← Position.after_start, byteLength_toList] at ending
  simp only [Token.ofText, cut, List.isEmpty_nil, placedTokens, isToken, ↓reduceIte, ending,
    String.ofList_toList]
  rfl

/-- A sign, a digit beyond ASCII, a point and a letter. -/
example : Token.ofText "-٣.x" = .ok (Token.alone "-٣.x") := by decide +kernel

/-- Whatever a text is cut into has one class token by token, the last token marks the
end, and no token is layout. Conversely a text of the class of identifiers or of numbers
is one token by itself, and so is the written form of any text, which is read back. -/
theorem Token.ofText_classes :
    (∀ text tokens, ofText text = .ok tokens →
      ∃ body last, tokens = body ++ [last] ∧
        (∀ token ∈ body, ∃ own, own ≠ .endOfText ∧ token.OnlyIs own) ∧
        last.OnlyIs .endOfText ∧ ∀ token ∈ tokens, ¬ LayoutText token.text.toList) ∧
    (∀ word : String, isIdentifier word.toList = true ∨ isNumber word.toList = true →
      ofText word = .ok (alone word)) ∧
    ∀ text, ofText (quote text) = .ok (alone (quote text)) ∧
      ∀ position, Token.is ⟨quote text, position⟩ .quoted = true ∧
        Spec.literal ⟨quote text, position⟩ = .ok text := by
  refine ⟨?_, ?_, ?_⟩
  · intro text tokens cut
    obtain ⟨body, last, rfl, empty, tokenTexts⟩ := exists_tokenTexts cut
    have ends : last.is .endOfText = true := is_endOfText_iff.mpr empty
    refine ⟨body, last, rfl, ?_, onlyIs_of_is ends, ?_⟩
    · intro token member
      obtain ⟨own, notEnd, accepted⟩ := (tokenTexts token member).exists_accepts
      exact ⟨own, notEnd, onlyIs_of_is accepted⟩
    · intro token member layout
      rcases List.mem_append.mp member with inBody | isLast
      · obtain ⟨own, _, accepted⟩ := (tokenTexts token inBody).exists_accepts
        exact layout.not_accepts own accepted
      · rw [List.mem_singleton.mp isLast] at layout
        exact layout.not_accepts .endOfText ends
  · rintro word (identifier | number)
    · exact IsWord.ofText_eq (.identifier identifier)
    · exact IsWord.ofText_eq (.number number)
  · intro text
    constructor
    · apply IsWord.ofText_eq
      rw [toList_quote]
      exact isWord_quoteChars text.toList
    · intro position
      constructor
      · simp [Token.is, TokenClass.accepts, isQuoted_quoteChars]
      · simp [Spec.literal, Literal.read_quote]

end Fieldmap
