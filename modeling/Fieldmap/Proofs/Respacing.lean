import Fieldmap.Proofs.ReadBack
import Fieldmap.Proofs.TokenPlaces

/-!
# Layout is free

The tokens of a text may be written again with any blanks and comments between them.
The new text has the same tokens at other positions, so it is compiled to the same
records and tables, or refused for the same fault, up to positions.
-/

namespace Fieldmap

open Text

/-! ## Separators -/

/-- Blanks, and comments with the line feeds that end them. -/
inductive Separates : List Char → Prop where
  | nil : Separates []
  | blank {c : Char} {rest : List Char} : isBlank c → Separates rest → Separates (c :: rest)
  | comment {line rest : List Char} : (∀ c ∈ line, (c != '\n') = true) → Separates rest →
      Separates ('/' :: '/' :: line ++ '\n' :: rest)

theorem Separates.spells {gap text : List Char} {words : List String} (separates : Separates gap)
    (spells : Spells text words) : Spells (gap ++ text) words := by
  induction separates with
  | nil => exact spells
  | blank blank _ ih => exact .blank blank ih
  | @comment line rest oneLine _ ih =>
      rw [List.append_assoc]
      exact .comment oneLine (.blank isBlank_lineFeed ih)

/-- A separator ends the word in front of it. -/
theorem Separates.ends {gap : List Char} (separates : Separates gap) (filled : gap ≠ [])
    (text : List Char) : (gap ++ text).head?.all endsWord = true := by
  cases separates with
  | nil => exact absurd rfl filled
  | blank blank _ => exact endsWord_of_isBlank blank
  | comment _ _ =>
      have slash : endsWord '/' = true := by decide
      exact slash

/-! ## The words of a text -/

/-- The text of a token that is not empty. -/
inductive IsTokenText : String → Prop where
  | word {word : String} : IsWord word.toList → IsTokenText word
  | mark (mark : Mark) : IsTokenText mark.text

theorem isNumber_of_isUnsignedNumber {text : List Char} (number : isUnsignedNumber text) :
    isNumber text = true := by
  unfold isNumber
  split
  · rename_i digits
    have noDigit : isDecimalDigit '-' = false := by decide
    simp [isUnsignedNumber, noDigit] at number
  · exact number

theorem Lexeme.Stands.isTokenText {before : Option Char} {lexeme : Lexeme} {after : List Char}
    (stands : Stands before lexeme after) (isToken : lexeme.isToken = true) :
    IsTokenText (String.ofList lexeme.text) := by
  have ofWord {text : List Char} (isWord : IsWord text) : IsTokenText (String.ofList text) :=
    .word (by rwa [String.toList_ofList])
  cases stands with
  | quoted closed => exact ofWord (.quoted closed)
  | signed number _ => exact ofWord (.number number)
  | unsigned number _ _ => exact ofWord (.number (isNumber_of_isUnsignedNumber number))
  | mark mark =>
      rw [← String.singleton_eq_ofList]
      exact .mark mark
  | identifier identifier _ _ => exact ofWord (.identifier identifier)
  | comment => cases isToken
  | blank => cases isToken

theorem Lexeme.Tiles.stands_of_mem {before : Option Char} {lexemes : List Lexeme}
    {rest : List Char} (tiles : Tiles before lexemes rest) {lexeme : Lexeme}
    (member : lexeme ∈ lexemes) : ∃ before after, Stands before lexeme after := by
  induction tiles with
  | nil => cases member
  | cons stands _ ih =>
      rcases List.mem_cons.mp member with rfl | member
      · exact ⟨_, _, stands⟩
      · exact ih member

/-- The words of a whole text are the texts of tokens. -/
theorem isTokenText_of_mem_words {before : Option Char} {text : List Char}
    (whole : (Lexemes.ofChars before text).stuck = []) :
    ∀ word ∈ (Lexemes.ofChars before text).words, IsTokenText word := by
  intro word member
  obtain ⟨lexeme, isMem, rfl⟩ := List.mem_map.mp member
  obtain ⟨lexemeMem, isToken⟩ := List.mem_filter.mp isMem
  obtain ⟨_, _, stands⟩ := (Lexemes.tiles_of_whole whole).2.stands_of_mem lexemeMem
  exact stands.isTokenText isToken

/-! ## Words and gaps -/

/-- A word with what separates it from the next one. -/
structure Piece where
  word : String
  gap : String

/-- Words with gaps between them, behind a gap in front of them all. -/
def spaced (front : String) (pieces : List Piece) : String :=
  front ++ String.join (pieces.map fun piece => piece.word ++ piece.gap)

theorem toList_spaced (front : String) (pieces : List Piece) :
    (spaced front pieces).toList =
      front.toList ++ pieces.flatMap fun piece => piece.word.toList ++ piece.gap.toList := by
  simp [spaced, List.flatMap_map]

theorem IsTokenText.spells {word : String} {text : List Char} {words : List String}
    (tokenText : IsTokenText word) (ends : text.head?.all endsWord = true)
    (spells : Spells text words) : Spells (word.toList ++ text) (word :: words) := by
  cases tokenText with
  | word isWord => exact .word isWord ends spells
  | mark mark =>
      rw [Mark.text, String.toList_singleton]
      exact .mark mark spells

/-- Words with separators between them spell themselves. Only behind the last word a
separator may be empty. -/
theorem spells_pieces {pieces : List Piece}
    (tokenTexts : ∀ piece ∈ pieces, IsTokenText piece.word)
    (separates : ∀ piece ∈ pieces, Separates piece.gap.toList)
    (apart : ∀ piece ∈ pieces.dropLast, piece.gap ≠ "") :
    Spells (pieces.flatMap fun piece => piece.word.toList ++ piece.gap.toList)
      (pieces.map Piece.word) := by
  induction pieces with
  | nil => exact .nil
  | cons piece rest ih =>
      rcases List.forall_mem_cons.mp tokenTexts with ⟨tokenText, restTexts⟩
      rcases List.forall_mem_cons.mp separates with ⟨gapSeparates, restSeparate⟩
      rw [List.flatMap_cons, List.append_assoc, List.map_cons]
      cases rest with
      | nil =>
          refine tokenText.spells ?_ (gapSeparates.spells .nil)
          by_cases empty : piece.gap.toList = []
          · rw [empty]
            rfl
          · exact gapSeparates.ends empty []
      | cons next more =>
          rcases List.forall_mem_cons.mp apart with ⟨filled, restApart⟩
          have gapFilled : piece.gap.toList ≠ [] := mt String.toList_eq_nil_iff.mp filled
          exact tokenText.spells (gapSeparates.ends gapFilled _)
            (gapSeparates.spells (ih restTexts restSeparate restApart))

/-! ## Outcomes up to positions -/

/-- An error without the position that it shows. -/
def Error.unplaced : Error → Error
  | .spec error => .spec (error.relocate fun _ => .nowhere)
  | error => error

/-- Records without their positions, or an error without the position that it shows. -/
def unplacedOutcome (outcome : Except Error (List Record)) : Except Error (List Record) :=
  (outcome.mapError Error.unplaced).map (List.map Record.unplaced)

namespace Spec

/-- The tables of a specification. -/
def code (text : String) : Traced Fieldmap.Error String := do
  let records ← compile text
  (tables records).mapError .missingDefault

/-- Up to positions, compilation only depends on what is read up to positions. -/
theorem unplacedOutcome_compile (text : String) :
    unplacedOutcome (compile text).outcome =
      match relocateResult (fun _ => .nowhere) (List.map Record.unplaced) (read text) with
      | .error error => .error (.spec error)
      | .ok records =>
          match checkRecords records with
          | .error violation => .error (.violation violation)
          | .ok () => .ok records := by
  rw [compile_outcome]
  cases read text with
  | error error => rfl
  | ok records =>
      have checked : checkRecords (records.map Record.unplaced) = checkRecords records :=
        checkRecords_relocate (fun _ => .nowhere) records
      simp only [relocateResult_ok, checked]
      cases checkRecords records <;> rfl

/-- Up to positions, tables only depend on what is compiled up to positions. -/
theorem code_outcome_unplaced (text : String) :
    (code text).outcome.mapError Error.unplaced =
      unplacedOutcome (compile text).outcome >>= fun records =>
        (tables records).outcome.mapError .missingDefault := by
  simp only [code, Traced.outcome_bind, Traced.outcome_mapError]
  cases (compile text).outcome with
  | error error => rfl
  | ok records =>
      have sameTables : tables (records.map Record.unplaced) = tables records :=
        tables_relocate (fun _ => .nowhere) records
      change ((tables records).outcome.mapError _).mapError _ =
        (tables (records.map Record.unplaced)).outcome.mapError _
      rw [sameTables]
      cases (tables records).outcome <;> rfl

/-- Texts with the same words are read alike up to positions. -/
theorem read_unplaced_eq {left right : String} {leftTokens rightTokens : List Token}
    (leftCut : Token.ofText left = .ok leftTokens)
    (rightCut : Token.ofText right = .ok rightTokens)
    (sameWords : leftTokens.map Token.text = rightTokens.map Token.text) :
    relocateResult (fun _ => .nowhere) (List.map Record.unplaced) (read left) =
      relocateResult (fun _ => .nowhere) (List.map Record.unplaced) (read right) := by
  have leftRead : read left = recordsOf leftTokens := by
    rw [read, leftCut]
    rfl
  have rightRead : read right = recordsOf rightTokens := by
    rw [read, rightCut]
    rfl
  have leftMoved := recordsOf_relocate (fun _ => .nowhere) leftTokens
  have rightMoved := recordsOf_relocate (fun _ => .nowhere) rightTokens
  rw [Token.map_relocate_nowhere, sameWords] at leftMoved
  rw [Token.map_relocate_nowhere] at rightMoved
  rw [leftRead, rightRead]
  exact leftMoved.symm.trans rightMoved

/-- A text whose words are set apart anew, by any blanks and comments, has the same
words. It is compiled to the same records with the same tables, or refused for the
same fault, up to positions. -/
theorem compile_spaced {text : String} {tokens : List Token} (cut : Token.ofText text = .ok tokens)
    {front : String} {pieces : List Piece}
    (sameWords : pieces.map Piece.word ++ [""] = tokens.map Token.text)
    (frontSeparates : Separates front.toList)
    (separates : ∀ piece ∈ pieces, Separates piece.gap.toList)
    (apart : ∀ piece ∈ pieces.dropLast, piece.gap ≠ "") :
    (∃ moved, Token.ofText (spaced front pieces) = .ok moved ∧
      moved.map Token.text = tokens.map Token.text) ∧
    unplacedOutcome (compile (spaced front pieces)).outcome =
      unplacedOutcome (compile text).outcome ∧
    (code (spaced front pieces)).outcome.mapError Error.unplaced =
      (code text).outcome.mapError Error.unplaced := by
  have tokenTexts : ∀ piece ∈ pieces, IsTokenText piece.word := by
    obtain ⟨whole, tokensEq⟩ := Token.ofText_eq_ok cut
    rw [tokensEq, Lexemes.text_placedTokens] at sameWords
    have wordsEq : pieces.map Piece.word = (Lexemes.ofChars none text.toList).words :=
      List.append_cancel_right sameWords
    intro piece member
    apply isTokenText_of_mem_words whole
    rw [← wordsEq]
    exact List.mem_map_of_mem member
  have spells : Spells (spaced front pieces).toList (pieces.map Piece.word) := by
    rw [toList_spaced]
    exact frontSeparates.spells (spells_pieces tokenTexts separates apart)
  obtain ⟨moved, movedCut, movedWords⟩ := spells.ofText
  rw [sameWords] at movedWords
  have sameOutcome : unplacedOutcome (compile (spaced front pieces)).outcome =
      unplacedOutcome (compile text).outcome := by
    rw [unplacedOutcome_compile, unplacedOutcome_compile, read_unplaced_eq movedCut cut movedWords]
  refine ⟨⟨moved, movedCut, movedWords⟩, sameOutcome, ?_⟩
  rw [code_outcome_unplaced, code_outcome_unplaced, sameOutcome]

/-- The tokens of a text without layout, in which a slash stands between quotes. -/
def touchingTokens : List Token := [
  ⟨"record", ⟨1, 1⟩⟩, ⟨"-5", ⟨1, 7⟩⟩, ⟨"\"//\"", ⟨1, 9⟩⟩, ⟨"y", ⟨1, 13⟩⟩, ⟨"\x7b", ⟨1, 14⟩⟩,
  ⟨"", ⟨1, 15⟩⟩]

/-- Its words with comments, an empty line and a separator beyond ASCII between them. -/
def touchingPieces : List Piece := [
  ⟨"record", "//a\n"⟩, ⟨"-5", "\r\n\n"⟩, ⟨"\"//\"", "\u2028//\n"⟩, ⟨"y", "\t"⟩, ⟨"\x7b", ""⟩]

theorem compile_touchingPieces :
    Token.ofText "record-5\"//\"y\x7b" = .ok touchingTokens ∧
    touchingPieces.map Piece.word ++ [""] = touchingTokens.map Token.text ∧
    Separates " ".toList ∧ (∀ piece ∈ touchingPieces, Separates piece.gap.toList) ∧
    (∀ piece ∈ touchingPieces.dropLast, piece.gap ≠ "") ∧
    unplacedOutcome (compile (spaced " " touchingPieces)).outcome =
      unplacedOutcome (compile "record-5\"//\"y\x7b").outcome := by
  have cut : Token.ofText "record-5\"//\"y\x7b" = .ok touchingTokens := by decide +kernel
  have space : Separates " ".toList := .blank (by decide) .nil
  have separates : ∀ piece ∈ touchingPieces, Separates piece.gap.toList := by
    have comment : Separates "//a\n".toList := @Separates.comment ['a'] [] (by simp) .nil
    have lines : Separates "\r\n\n".toList :=
      .blank (by decide) (.blank (by decide) (.blank (by decide) .nil))
    have mixed : Separates "\u2028//\n".toList :=
      .blank (by decide) (@Separates.comment [] [] nofun .nil)
    have tab : Separates "\t".toList := .blank (by decide) .nil
    simp only [touchingPieces, List.forall_mem_cons]
    exact ⟨comment, lines, mixed, tab, .nil, nofun⟩
  have apart : ∀ piece ∈ touchingPieces.dropLast, piece.gap ≠ "" := by decide
  exact ⟨cut, by decide, space, separates, apart,
    (compile_spaced cut (by decide) space separates apart).2.1⟩

end Spec

end Fieldmap
