import Fieldmap.Proofs.Tiling

/-!
# Spelling tokens out

Many texts are cut into the same tokens. This module says when a text spells a list
of tokens: words are set apart from each other by blanks, comments or marks, and no
two words touch. Such a text is always cut, into just these tokens.
-/

namespace Fieldmap

open Text

/-- A token that could run into its neighbours. -/
inductive IsWord : List Char → Prop where
  | identifier {text : List Char} : isIdentifier text → IsWord text
  | number {text : List Char} : isNumber text → IsWord text
  | quoted {inner : List Char} : Lexeme.closing? inner = some (inner, []) → IsWord ('"' :: inner)

/-- The text of a mark. -/
def Mark.text (mark : Mark) : String :=
  String.singleton mark.char

/-- A text and the tokens that it spells. What follows a word ends it. -/
inductive Spells : List Char → List String → Prop where
  | nil : Spells [] []
  | blank {c : Char} {text : List Char} {words : List String} :
      isBlank c → Spells text words → Spells (c :: text) words
  | comment {line text : List Char} {words : List String} : (∀ c ∈ line, (c != '\n') = true) →
      Spells ('\n' :: text) words → Spells ('/' :: '/' :: line ++ '\n' :: text) words
  | mark {text : List Char} {words : List String} (mark : Mark) :
      Spells text words → Spells (mark.char :: text) (mark.text :: words)
  | word {word : String} {text : List Char} {words : List String} :
      IsWord word.toList → text.head?.all endsWord → Spells text words →
      Spells (word.toList ++ text) (word :: words)

/-! ## Words among their neighbours -/

theorem not_isNumberRest_of_ends {after : List Char} (ends : after.head?.all endsWord = true) :
    after.head?.any isNumberRest = false := by
  cases after with
  | nil => rfl
  | cons c rest =>
      have cEnds : endsWord c = true := by simpa using ends
      exact endsWord.not_isNumberRest cEnds

theorem not_touchesWord_of_ends {after : List Char} (ends : after.head?.all endsWord = true) :
    Lexeme.touchesWord after.head? = false := by
  cases after with
  | nil => rfl
  | cons c rest =>
      have cEnds : endsWord c = true := by simpa using ends
      exact endsWord.not_isWordChar cEnds

theorem IsWord.ne_nil {word : List Char} (isWord : IsWord word) : word ≠ [] := by
  intro isNil
  subst isNil
  cases isWord with
  | identifier identifier => cases identifier
  | number number => cases number

/-- A word is one lexeme between neighbours that end it. -/
theorem IsWord.stands {word after : List Char} {before : Option Char} (isWord : IsWord word)
    (apart : Lexeme.touchesWord before = true → word.head?.all endsWord = true)
    (ends : after.head?.all endsWord = true) :
    ∃ kind, Lexeme.Stands before ⟨kind, word⟩ after ∧ Lexeme.isToken ⟨kind, word⟩ = true := by
  -- A word character at its head shows that a word stands at a boundary.
  have boundary {c : Char} {rest : List Char} (wordEq : word = c :: rest)
      (inWord : isWordChar c = true) : Lexeme.touchesWord before = false := by
    rw [Bool.eq_false_iff]
    intro touches
    have cEnds : endsWord c = true := by simpa [wordEq] using apart touches
    rw [endsWord.not_isWordChar cEnds] at inWord
    cases inWord
  cases isWord with
  | identifier identifier =>
      cases word with
      | nil => cases identifier
      | cons c rest =>
          have start : isIdentifierStart c = true := by
            simp only [isIdentifier, Bool.and_eq_true] at identifier
            exact identifier.1
          have inWord := isWordChar_of_isIdentifierRest
            (isIdentifierRest_of_isIdentifierStart start)
          exact ⟨.identifier, .identifier identifier (boundary rfl inWord)
            (not_touchesWord_of_ends ends), rfl⟩
  | number number =>
      unfold isNumber at number
      split at number
      · exact ⟨.number, .signed number (not_isNumberRest_of_ends ends), rfl⟩
      · cases word with
        | nil => cases number
        | cons c rest =>
            have digit : isDecimalDigit c = true := by
              simp only [isUnsignedNumber, Bool.and_eq_true] at number
              exact number.1
            exact ⟨.number, .unsigned number (boundary rfl (isWordChar_of_isDecimalDigit digit))
              (not_isNumberRest_of_ends ends), rfl⟩
  | quoted closed => exact ⟨.quoted, .quoted closed, rfl⟩

/-! ## Cutting a spelled text -/

namespace Lexemes

/-- The texts of the tokens among the lexemes. -/
def words (cut : Lexemes) : List String :=
  (cut.lexemes.filter Lexeme.isToken).map fun lexeme => String.ofList lexeme.text

/-- A text that is cut into the given tokens first, and then as another one is. -/
structure Continues (cut : Lexemes) (words : List String) (other : Lexemes) : Prop where
  stuck_eq : cut.stuck = other.stuck
  words_eq : cut.words = words ++ other.words

theorem Continues.trans {first second third : Lexemes} {left right : List String}
    (leading : first.Continues left second) (following : second.Continues right third) :
    first.Continues (left ++ right) third := by
  refine ⟨leading.stuck_eq.trans following.stuck_eq, ?_⟩
  rw [leading.words_eq, following.words_eq, List.append_assoc]

theorem continues_token {before : Option Char} {lexeme : Lexeme} {after : List Char}
    (stands : Lexeme.Stands before lexeme after) (isToken : lexeme.isToken = true) :
    (ofChars before (lexeme.text ++ after)).Continues [String.ofList lexeme.text]
      (ofChars lexeme.text.getLast? after) := by
  rw [ofChars_append stands]
  refine ⟨rfl, ?_⟩
  simp [words, isToken]

/-- Comments and blanks leave no trace among the tokens. -/
theorem continues_layout {before : Option Char} {lexeme : Lexeme} {after : List Char}
    (stands : Lexeme.Stands before lexeme after) (isLayout : lexeme.isToken = false) :
    (ofChars before (lexeme.text ++ after)).Continues [] (ofChars lexeme.text.getLast? after) := by
  rw [ofChars_append stands]
  refine ⟨rfl, ?_⟩
  simp [words, isLayout]

/-- The tokens placed among lexemes have the words of the lexemes, and the empty one
marks the end. -/
theorem text_placedTokens (position : Position) (lexemes : List Lexeme) :
    (placedTokens position lexemes).map Token.text = Lexemes.words ⟨lexemes, []⟩ ++ [""] := by
  induction lexemes generalizing position with
  | nil => rfl
  | cons lexeme rest ih =>
      rw [placedTokens]
      split
      · rename_i isToken
        rw [List.map_cons, ih]
        simp [Lexemes.words, isToken]
      · rename_i isLayout
        rw [ih]
        simp [Lexemes.words, isLayout]

/-- One more blank in front leaves no trace among the tokens either. -/
theorem continues_blank {c : Char} (blank : isBlank c = true) (before : Option Char)
    (text : List Char) : (ofChars before (c :: text)).Continues [] (ofChars (some c) text) := by
  obtain ⟨stuckEq, placedEq⟩ := ofChars_blank blank before text
  have texts := congrArg (List.map Token.text) (placedEq .start)
  rw [text_placedTokens, text_placedTokens] at texts
  exact ⟨stuckEq, List.append_cancel_right texts⟩

theorem continues_blanks {run : List Char} (inside : ∀ c ∈ run, isBlank c = true)
    (before : Option Char) (text : List Char) :
    (ofChars before (run ++ text)).Continues [] (ofChars (run.getLast?.or before) text) := by
  induction run generalizing before with
  | nil => exact ⟨rfl, rfl⟩
  | cons c run ih =>
      rcases List.forall_mem_cons.mp inside with ⟨blank, runInside⟩
      rw [getLast?_cons_or]
      exact (continues_blank blank before (run ++ text)).trans (ih runInside (some c))

end Lexemes

/-- Behind a stretch that spells its words, a text is cut as it is by itself. What stands
in front matters only where it would touch a word at the head. -/
theorem Spells.continues {stretch rest : List Char} {words : List String}
    (spells : Spells stretch words) (ends : rest.head?.all endsWord = true)
    (before : Option Char)
    (apart : Lexeme.touchesWord before = true → (stretch ++ rest).head?.all endsWord = true) :
    (Lexemes.ofChars before (stretch ++ rest)).Continues words
      (Lexemes.ofChars (stretch.getLast?.or before) rest) := by
  induction spells generalizing before with
  | nil => exact ⟨rfl, rfl⟩
  | @blank c text words blank _ ih =>
      have noWord : Lexeme.touchesWord (some c) = false :=
        endsWord.not_isWordChar (endsWord_of_isBlank blank)
      rw [getLast?_cons_or]
      refine (Lexemes.continues_blank blank before (text ++ rest)).trans (ih (some c) ?_)
      intro touches
      rw [noWord] at touches
      cases touches
  | @comment line text words oneLine _ ih =>
      have stands : Lexeme.Stands before ⟨.comment, '/' :: '/' :: line⟩ ('\n' :: (text ++ rest)) :=
        .comment oneLine rfl
      have lineBreak : endsWord '\n' = true := by decide
      rw [getLast?_append_or (List.cons_ne_nil _ _), List.append_assoc]
      exact (Lexemes.continues_layout stands rfl).trans (ih _ fun _ => lineBreak)
  | @mark text words mark _ ih =>
      have noWord : Lexeme.touchesWord (some mark.char) = false :=
        endsWord.not_isWordChar mark.endsWord_char
      have stands : Lexeme.Stands before ⟨.mark, [mark.char]⟩ (text ++ rest) := .mark mark
      have textEq : mark.text = String.ofList [mark.char] := String.singleton_eq_ofList
      rw [textEq, getLast?_cons_or]
      refine (Lexemes.continues_token stands rfl).trans (ih (some mark.char) ?_)
      intro touches
      rw [noWord] at touches
      cases touches
  | @word word text words isWord textEnds _ ih =>
      have headEq : (word.toList ++ (text ++ rest)).head? = word.toList.head? := by
        cases chars : word.toList with
        | nil => exact absurd chars isWord.ne_nil
        | cons c others => rfl
      have behindEnds : (text ++ rest).head?.all endsWord = true := by
        cases text with
        | nil => exact ends
        | cons c others => exact textEnds
      rw [List.append_assoc, headEq] at apart
      obtain ⟨kind, stands, isToken⟩ := isWord.stands apart behindEnds
      have leading := Lexemes.continues_token stands isToken
      rw [String.ofList_toList] at leading
      rw [getLast?_append_or isWord.ne_nil, List.append_assoc]
      exact leading.trans (ih _ fun _ => behindEnds)

/-! ## Tokens of a spelled text -/

/-- A text has the tokens that it spells, and the empty one behind them. -/
theorem Spells.ofText {text : String} {words : List String} (spells : Spells text.toList words) :
    ∃ tokens, Token.ofText text = .ok tokens ∧ tokens.map Token.text = words ++ [""] := by
  have continues : (Lexemes.ofChars none (text.toList ++ [])).Continues words
      (Lexemes.ofChars (text.toList.getLast?.or none) []) := spells.continues rfl none nofun
  have nothing (before : Option Char) : Lexemes.ofChars before [] = ⟨[], []⟩ := by
    rw [Lexemes.ofChars]
    rfl
  rw [List.append_nil, nothing] at continues
  have wordsEq : (Lexemes.ofChars none text.toList).words = words := by
    simpa [Lexemes.words] using continues.words_eq
  refine ⟨placedTokens .start (Lexemes.ofChars none text.toList).lexemes, ?_, ?_⟩
  · simp [Token.ofText, continues.stuck_eq]
  · rw [Lexemes.text_placedTokens, ← wordsEq]
    rfl

/-! ## Stretches of a spelled text -/

theorem Spells.blanks {run text : List Char} {words : List String}
    (inside : ∀ c ∈ run, isBlank c = true) (spells : Spells text words) :
    Spells (run ++ text) words := by
  induction run with
  | nil => exact spells
  | cons c run ih =>
      have others : ∀ c ∈ run, isBlank c = true :=
        fun other member => inside other (List.mem_cons_of_mem c member)
      exact .blank (inside c List.mem_cons_self) (ih others)

/-- A word may stand right in front of a mark. -/
theorem Spells.wordMark {word : String} {text : List Char} {words : List String}
    (isWord : IsWord word.toList) (mark : Mark) (spells : Spells text words) :
    Spells (word.toList ++ mark.char :: text) (word :: mark.text :: words) :=
  .word isWord mark.endsWord_char (.mark mark spells)

/-- A blank keeps a word apart from whatever follows. -/
theorem Spells.wordBlank {word : String} {c : Char} {text : List Char} {words : List String}
    (isWord : IsWord word.toList) (blank : isBlank c = true) (spells : Spells text words) :
    Spells (word.toList ++ c :: text) (word :: words) :=
  .word isWord (endsWord_of_isBlank blank) (.blank blank spells)

/-- A stretch of text that spells its words in front of any text. -/
def Leads (stretch : List Char) (words : List String) : Prop :=
  ∀ text rest, Spells text rest → Spells (stretch ++ text) (words ++ rest)

theorem Leads.append {left right : List Char} {leftWords rightWords : List String}
    (leftLeads : Leads left leftWords) (rightLeads : Leads right rightWords) :
    Leads (left ++ right) (leftWords ++ rightWords) := by
  intro text rest spells
  rw [List.append_assoc, List.append_assoc]
  exact leftLeads _ _ (rightLeads _ _ spells)

theorem Leads.flatMap {α : Type} {values : List α} {stretch : α → List Char}
    {words : α → List String} (each : ∀ value ∈ values, Leads (stretch value) (words value)) :
    Leads (values.flatMap stretch) (values.flatMap words) := by
  intro text rest spells
  induction values with
  | nil => exact spells
  | cons value values ih =>
      have others : ∀ value ∈ values, Leads (stretch value) (words value) :=
        fun other member => each other (List.mem_cons_of_mem value member)
      rw [List.flatMap_cons, List.flatMap_cons, List.append_assoc, List.append_assoc]
      exact each value List.mem_cons_self _ _ (ih others)

theorem Leads.spells {stretch : List Char} {words : List String} (leads : Leads stretch words) :
    Spells stretch words := by
  have whole := leads [] [] .nil
  rwa [List.append_nil, List.append_nil] at whole

end Fieldmap
