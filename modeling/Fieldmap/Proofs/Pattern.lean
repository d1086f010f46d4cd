import Fieldmap.Proofs.QuotedLiteral

/-!
# Patterns of lexemes

The kinds of lexemes are told apart by patterns. A pattern says which stretches of a
text it takes, by the characters of the stretch and by the word boundaries next to it,
but not how far a stretch has to go. The kinds are alternatives in a fixed order: at a
place in a text the first kind wins whose pattern takes any stretch there, and it takes
the longest one.

Cutting a text never looks for the longest stretch. What it finds is the winner all the
same, and where it finds nothing no pattern takes a stretch.
-/

namespace Fieldmap

open Text

/-- A pattern of stretches of text. -/
inductive Pattern where
  /-- The stretch without characters. -/
  | empty
  | one (property : Char → Bool)
  /-- The empty stretch between a character of a word and one outside of words. -/
  | boundary
  | seq (first second : Pattern)
  | either (left right : Pattern)
  | many (inner : Pattern)

namespace Pattern

/-- A pattern takes a stretch behind a character `before` and in front of a text `after`. -/
inductive Takes : Pattern → Option Char → List Char → List Char → Prop where
  | empty {before : Option Char} {after : List Char} : Takes empty before [] after
  | one {property : Char → Bool} {before : Option Char} {c : Char} {after : List Char} :
      property c → Takes (one property) before [c] after
  | boundary {before : Option Char} {after : List Char} :
      Lexeme.touchesWord before ≠ Lexeme.touchesWord after.head? →
      Takes boundary before [] after
  | seq {first second : Pattern} {before : Option Char} {left right after : List Char} :
      first.Takes before left (right ++ after) →
      second.Takes (left.getLast?.or before) right after →
      Takes (seq first second) before (left ++ right) after
  | left {left right : Pattern} {before : Option Char} {stretch after : List Char} :
      left.Takes before stretch after → Takes (either left right) before stretch after
  | right {left right : Pattern} {before : Option Char} {stretch after : List Char} :
      right.Takes before stretch after → Takes (either left right) before stretch after
  | done {inner : Pattern} {before : Option Char} {after : List Char} :
      Takes (many inner) before [] after
  | more {inner : Pattern} {before : Option Char} {left right after : List Char} :
      inner.Takes before left (right ++ after) →
      (many inner).Takes (left.getLast?.or before) right after →
      Takes (many inner) before (left ++ right) after

section

variable {property : Char → Bool} {next : Pattern} {before : Option Char}
  {stretch after : List Char}

theorem takes_one_iff :
    (one property).Takes before stretch after ↔ ∃ c, stretch = [c] ∧ property c = true := by
  constructor
  · intro takes
    cases takes with
    | one holds => exact ⟨_, rfl, holds⟩
  · rintro ⟨c, rfl, holds⟩
    exact .one holds

/-- One character, and then the rest behind it. -/
theorem takes_one_seq_iff :
    (seq (one property) next).Takes before stretch after ↔
      ∃ c rest, stretch = c :: rest ∧ property c = true ∧ next.Takes (some c) rest after := by
  constructor
  · intro takes
    cases takes with
    | seq first second =>
        obtain ⟨c, rfl, holds⟩ := takes_one_iff.mp first
        exact ⟨c, _, rfl, holds, second⟩
  · rintro ⟨c, rest, rfl, holds, further⟩
    have first : (one property).Takes before [c] (rest ++ after) := .one holds
    exact first.seq further

/-- A boundary in front depends on the character behind it. -/
theorem takes_boundary_seq_iff :
    (seq boundary next).Takes before stretch after ↔
      Lexeme.touchesWord before ≠ Lexeme.touchesWord (stretch ++ after).head? ∧
        next.Takes before stretch after := by
  constructor
  · intro takes
    cases takes with
    | seq first second =>
        cases first with
        | boundary differs => exact ⟨differs, second⟩
  · rintro ⟨differs, further⟩
    have first : boundary.Takes before [] (stretch ++ after) := .boundary differs
    exact first.seq further

/-- Any number of characters of one class. -/
theorem takes_many_one_iff :
    (many (one property)).Takes before stretch after ↔ ∀ c ∈ stretch, property c = true := by
  constructor
  · intro takes
    generalize patternEq : many (one property) = pattern at takes
    induction takes with
    | done => nofun
    | @more inner _ left right _ first _ _ ih =>
        cases patternEq
        obtain ⟨c, rfl, holds⟩ := takes_one_iff.mp first
        exact List.forall_mem_cons.mpr ⟨holds, ih rfl⟩
    | _ => cases patternEq
  · intro inside
    induction stretch generalizing before with
    | nil => exact .done
    | cons c rest ih =>
        rcases List.forall_mem_cons.mp inside with ⟨holds, others⟩
        have first : (one property).Takes before [c] (rest ++ after) := .one holds
        exact first.more (ih others)

end

/-! ## Between quotes -/

/-- What may stand between quotes: a character that means nothing there by itself, or a
backslash and any character of the same line. -/
def quotedChar : Pattern :=
  either (one isInert) (seq (one (· == '\\')) (one (· != '\n')))

theorem takes_quotedChar_iff {before : Option Char} {stretch after : List Char} :
    quotedChar.Takes before stretch after ↔
      ∃ c, stretch = [c] ∧ isInert c = true ∨ stretch = ['\\', c] ∧ c ≠ '\n' := by
  constructor
  · intro takes
    cases takes with
    | left plain =>
        obtain ⟨c, rfl, inert⟩ := takes_one_iff.mp plain
        exact ⟨c, .inl ⟨rfl, inert⟩⟩
    | right escaped =>
        obtain ⟨slash, rest, rfl, isSlash, further⟩ := takes_one_seq_iff.mp escaped
        obtain ⟨c, rfl, sameLine⟩ := takes_one_iff.mp further
        exact ⟨c, .inr ⟨by rw [beq_iff_eq.mp isSlash], bne_iff_ne.mp sameLine⟩⟩
  · rintro ⟨c, ⟨rfl, inert⟩ | ⟨rfl, sameLine⟩⟩
    · exact .left (.one inert)
    · exact .right (takes_one_seq_iff.mpr ⟨_, _, rfl, rfl, .one (bne_iff_ne.mpr sameLine)⟩)

/-- A quote closes behind what may stand between quotes. -/
theorem closing?_of_takes {before : Option Char} {body behind : List Char}
    (takes : (many quotedChar).Takes before body behind) (after : List Char) :
    Lexeme.closing? (body ++ '"' :: after) = some (body ++ ['"'], after) := by
  generalize patternEq : many quotedChar = pattern at takes
  induction takes with
  | done => rfl
  | @more inner _ left right _ first _ _ ih =>
      cases patternEq
      obtain ⟨c, ⟨rfl, inert⟩ | ⟨rfl, sameLine⟩⟩ := takes_quotedChar_iff.mp first
      · simp [Lexeme.closing?_cons_inert inert, ih rfl]
      · simp [Lexeme.closing?_cons_escaped sameLine, ih rfl]
  | _ => cases patternEq

/-- In front of the quote that closes stands what may stand between quotes. -/
theorem exists_takes_of_closing? {text inner after : List Char}
    (closed : Lexeme.closing? text = some (inner, after)) :
    ∃ body, inner = body ++ ['"'] ∧
      ∀ before behind, (many quotedChar).Takes before body behind := by
  induction text using Lexeme.closing?.induct generalizing inner after with
  | case1 | case3 | case4 | case5 => simp [Lexeme.closing?] at closed
  | case2 =>
      simp only [Lexeme.closing?, Option.some.injEq, Prod.mk.injEq] at closed
      rcases closed with ⟨rfl, rfl⟩
      exact ⟨[], rfl, fun _ _ => .done⟩
  | case6 c text sameLine ih =>
      rw [Lexeme.closing?_cons_escaped sameLine] at closed
      simp only [Option.map_eq_some_iff, Prod.mk.injEq] at closed
      rcases closed with ⟨⟨inner, after⟩, closed, rfl, rfl⟩
      obtain ⟨body, rfl, takes⟩ := ih closed
      refine ⟨'\\' :: c :: body, rfl, fun before behind => ?_⟩
      have escaped : quotedChar.Takes before ['\\', c] (body ++ behind) :=
        takes_quotedChar_iff.mpr ⟨c, .inr ⟨rfl, sameLine⟩⟩
      exact .more escaped (takes _ behind)
  | case7 c text notQuote notBreak notEnd notEscapedBreak notEscape ih =>
      have notSlash : c ≠ '\\' := by
        intro equal
        cases text with
        | nil => exact notEnd equal rfl
        | cons next rest => exact notEscape next rest equal rfl
      have inert : isInert c = true := by
        simp only [isInert, Bool.and_eq_true, bne_iff_ne]
        exact ⟨⟨notQuote, notSlash⟩, notBreak⟩
      rw [Lexeme.closing?_cons_inert inert] at closed
      simp only [Option.map_eq_some_iff, Prod.mk.injEq] at closed
      rcases closed with ⟨⟨inner, after⟩, closed, rfl, rfl⟩
      obtain ⟨body, rfl, takes⟩ := ih closed
      refine ⟨c :: body, rfl, fun before behind => ?_⟩
      have plain : quotedChar.Takes before [c] (body ++ behind) :=
        takes_quotedChar_iff.mpr ⟨c, .inl ⟨rfl, inert⟩⟩
      exact .more plain (takes _ behind)

end Pattern

/-! ## The kinds of lexemes -/

/-- A minus sign, which may be left out. -/
def Pattern.sign : Pattern :=
  either (one (· == '-')) empty

/-- A number without its sign, at a boundary. -/
def Pattern.digits : Pattern :=
  seq boundary (seq (one isDecimalDigit) (many (one isNumberRest)))

/-- The pattern of each kind. -/
def LexemeKind.pattern : LexemeKind → Pattern
  | quoted => .seq (.one (· == '"')) (.seq (.many .quotedChar) (.one (· == '"')))
  | number => .seq .sign .digits
  | mark => .one fun c => (Mark.ofChar? c).isSome
  | identifier =>
      .seq .boundary
        (.seq (.one isIdentifierStart) (.seq (.many (.one isIdentifierRest)) .boundary))
  | comment => .seq (.one (· == '/')) (.seq (.one (· == '/')) (.many (.one (· != '\n'))))
  | blank => .seq (.one isBlank) (.many (.one isBlank))

/-- The kinds in order. -/
def LexemeKind.alternatives : List LexemeKind :=
  [quoted, number, mark, identifier, comment, blank]

/-- The pattern of a kind takes some stretch at the head of a text. -/
def LexemeKind.Starts (kind : LexemeKind) (before : Option Char) (text : List Char) : Prop :=
  ∃ stretch after, text = stretch ++ after ∧ kind.pattern.Takes before stretch after

namespace Lexeme

/-- A lexeme at the head of a text that is the longest stretch of the first kind whose
pattern takes any. -/
structure Wins (before : Option Char) (lexeme : Lexeme) (after : List Char) : Prop where
  takes : lexeme.kind.pattern.Takes before lexeme.text after
  longest : ∀ stretch rest, stretch ++ rest = lexeme.text ++ after →
    lexeme.kind.pattern.Takes before stretch rest → stretch.length ≤ lexeme.text.length
  first : ∀ earlier later, LexemeKind.alternatives = earlier ++ lexeme.kind :: later →
    ∀ kind ∈ earlier, ¬ kind.Starts before (lexeme.text ++ after)

/-! ## Lexemes have the patterns of their kinds -/

theorem takes_digits_iff {before : Option Char} {stretch after : List Char} :
    Pattern.digits.Takes before stretch after ↔
      isUnsignedNumber stretch = true ∧ touchesWord before = false := by
  rw [Pattern.digits, Pattern.takes_boundary_seq_iff, Pattern.takes_one_seq_iff]
  constructor
  · rintro ⟨differs, digit, rest, rfl, isDigit, further⟩
    have inWord : touchesWord (some digit) = true := isWordChar_of_isDecimalDigit isDigit
    rw [List.cons_append, List.head?_cons, inWord] at differs
    refine ⟨?_, by simpa using differs⟩
    simpa [isUnsignedNumber, isDigit] using Pattern.takes_many_one_iff.mp further
  · rintro ⟨number, apart⟩
    cases stretch with
    | nil => cases number
    | cons digit rest =>
        simp only [isUnsignedNumber, Bool.and_eq_true, List.all_eq_true] at number
        have inWord : touchesWord (some digit) = true := isWordChar_of_isDecimalDigit number.1
        refine ⟨?_, digit, rest, rfl, number.1, Pattern.takes_many_one_iff.mpr number.2⟩
        simp [inWord, apart]

/-- A sign is a boundary of its own for the digits behind it. -/
theorem takes_number_iff {before : Option Char} {stretch after : List Char} :
    LexemeKind.number.pattern.Takes before stretch after ↔
      ∃ digits, isUnsignedNumber digits = true ∧
        (stretch = '-' :: digits ∨ stretch = digits ∧ touchesWord before = false) := by
  constructor
  · intro takes
    cases takes with
    | seq sign further =>
        cases sign with
        | left minus =>
            obtain ⟨c, rfl, isMinus⟩ := Pattern.takes_one_iff.mp minus
            rw [beq_iff_eq.mp isMinus]
            exact ⟨_, (takes_digits_iff.mp further).1, .inl rfl⟩
        | right noSign =>
            cases noSign
            obtain ⟨number, apart⟩ := takes_digits_iff.mp further
            exact ⟨_, number, .inr ⟨rfl, apart⟩⟩
  · rintro ⟨digits, number, rfl | ⟨rfl, apart⟩⟩
    · have sign : Pattern.sign.Takes before ['-'] (digits ++ after) := .left (.one rfl)
      have notWord : touchesWord (some '-') = false := by decide
      exact sign.seq (takes_digits_iff.mpr ⟨number, notWord⟩)
    · have noSign : Pattern.sign.Takes before [] (stretch ++ after) := .right .empty
      exact noSign.seq (takes_digits_iff.mpr ⟨number, apart⟩)

theorem touchesWord_getLast? {text : List Char} (inside : ∀ c ∈ text, isIdentifierRest c = true)
    {first : Char} (start : isIdentifierStart first = true) :
    touchesWord (text.getLast?.or (some first)) = true := by
  cases lastEq : text.getLast? with
  | none => exact isWordChar_of_isIdentifierRest (isIdentifierRest_of_isIdentifierStart start)
  | some last => exact isWordChar_of_isIdentifierRest (inside last (List.mem_of_getLast? lastEq))

theorem takes_identifier_iff {before : Option Char} {stretch after : List Char} :
    LexemeKind.identifier.pattern.Takes before stretch after ↔
      isIdentifier stretch = true ∧ touchesWord before = false ∧
        touchesWord after.head? = false := by
  rw [LexemeKind.pattern, Pattern.takes_boundary_seq_iff, Pattern.takes_one_seq_iff]
  constructor
  · rintro ⟨differs, first, rest, rfl, start, further⟩
    cases further with
    | @seq _ _ _ left right _ run closing =>
        cases closing with
        | boundary ends =>
            have inside := Pattern.takes_many_one_iff.mp run
            have inWord : touchesWord (some first) = true :=
              isWordChar_of_isIdentifierRest (isIdentifierRest_of_isIdentifierStart start)
            rw [List.cons_append, List.head?_cons, inWord] at differs
            rw [touchesWord_getLast? inside start] at ends
            refine ⟨?_, by simpa using differs, by simpa using ends⟩
            simpa [isIdentifier, start] using inside
  · rintro ⟨identifier, apart, ends⟩
    cases stretch with
    | nil => cases identifier
    | cons first rest =>
        simp only [isIdentifier, Bool.and_eq_true, List.all_eq_true] at identifier
        rcases identifier with ⟨start, inside⟩
        have inWord : touchesWord (some first) = true :=
          isWordChar_of_isIdentifierRest (isIdentifierRest_of_isIdentifierStart start)
        refine ⟨by simp [apart, inWord], first, rest, rfl, start, ?_⟩
        have closing : Pattern.boundary.Takes (rest.getLast?.or (some first)) [] after := by
          apply Pattern.Takes.boundary
          rw [touchesWord_getLast? inside start, ends]
          decide
        have whole := Pattern.Takes.seq (Pattern.takes_many_one_iff.mpr inside) closing
        rwa [List.append_nil] at whole

theorem Stands.takes {before : Option Char} {lexeme : Lexeme} {after : List Char}
    (stands : Stands before lexeme after) :
    lexeme.kind.pattern.Takes before lexeme.text after := by
  cases stands with
  | quoted closed =>
      obtain ⟨body, rfl, takes⟩ := Pattern.exists_takes_of_closing? closed
      exact Pattern.takes_one_seq_iff.mpr ⟨'"', _, rfl, rfl, .seq (takes _ _) (.one rfl)⟩
  | signed number _ => exact takes_number_iff.mpr ⟨_, number, .inl rfl⟩
  | unsigned number apart _ => exact takes_number_iff.mpr ⟨_, number, .inr ⟨rfl, apart⟩⟩
  | mark mark => exact .one (by simp)
  | identifier identifier apart stop => exact takes_identifier_iff.mpr ⟨identifier, apart, stop⟩
  | comment oneLine _ =>
      exact Pattern.takes_one_seq_iff.mpr ⟨'/', _, rfl, rfl, Pattern.takes_one_seq_iff.mpr
        ⟨'/', _, rfl, rfl, Pattern.takes_many_one_iff.mpr oneLine⟩⟩
  | blank first inside _ =>
      exact Pattern.takes_one_seq_iff.mpr
        ⟨_, _, rfl, first, Pattern.takes_many_one_iff.mpr inside⟩

/-! ## What patterns take is found -/

theorem isUnsignedNumber_append {digits more : List Char} (number : isUnsignedNumber digits = true)
    (continues : ∀ c ∈ more, isNumberRest c = true) :
    isUnsignedNumber (digits ++ more) = true := by
  cases digits with
  | nil => cases number
  | cons digit rest =>
      simp only [isUnsignedNumber, Bool.and_eq_true] at number
      simpa [isUnsignedNumber, number] using continues

/-- Where the pattern of a kind takes a stretch, a lexeme of the kind stands that is at
least as long. -/
theorem exists_stands_of_takes {kind : LexemeKind} {before : Option Char}
    {stretch after : List Char} (takes : kind.pattern.Takes before stretch after) :
    ∃ more rest, after = more ++ rest ∧ Stands before ⟨kind, stretch ++ more⟩ rest := by
  -- A run of a class goes on for as long as the class does.
  have run (property : Char → Bool) : ∃ more rest, after = more ++ rest ∧
      (∀ c ∈ more, property c = true) ∧ rest.head?.any property = false :=
    ⟨after.takeWhile property, after.dropWhile property,
      List.takeWhile_append_dropWhile.symm, List.all_eq_true.mp List.all_takeWhile,
      head?_dropWhile_stop property after⟩
  cases kind with
  | quoted =>
      obtain ⟨quote, inner, rfl, isQuote, further⟩ := Pattern.takes_one_seq_iff.mp takes
      cases further with
      | @seq _ _ _ body closing _ inside ends =>
          obtain ⟨c, rfl, isClosing⟩ := Pattern.takes_one_iff.mp ends
          rw [beq_iff_eq.mp isQuote, beq_iff_eq.mp isClosing]
          refine ⟨[], after, rfl, ?_⟩
          rw [List.append_nil]
          exact .quoted (Pattern.closing?_of_takes inside [])
  | number =>
      obtain ⟨more, rest, afterEq, continues, stop⟩ := run isNumberRest
      refine ⟨more, rest, afterEq, ?_⟩
      obtain ⟨digits, number, rfl | ⟨rfl, apart⟩⟩ := takes_number_iff.mp takes
      · exact .signed (isUnsignedNumber_append number continues) stop
      · exact .unsigned (isUnsignedNumber_append number continues) apart stop
  | mark =>
      obtain ⟨c, rfl, isMark⟩ := Pattern.takes_one_iff.mp takes
      obtain ⟨mark, isMark⟩ := Option.isSome_iff_exists.mp isMark
      rw [← Mark.ofChar?_eq_some_iff.mp isMark]
      exact ⟨[], after, rfl, .mark mark⟩
  | identifier =>
      obtain ⟨identifier, apart, ends⟩ := takes_identifier_iff.mp takes
      refine ⟨[], after, rfl, ?_⟩
      rw [List.append_nil]
      exact .identifier identifier apart ends
  | comment =>
      obtain ⟨more, rest, afterEq, continues, stop⟩ := run (· != '\n')
      refine ⟨more, rest, afterEq, ?_⟩
      obtain ⟨first, others, rfl, isFirst, further⟩ := Pattern.takes_one_seq_iff.mp takes
      obtain ⟨second, line, rfl, isSecond, further⟩ := Pattern.takes_one_seq_iff.mp further
      rw [beq_iff_eq.mp isFirst, beq_iff_eq.mp isSecond]
      have oneLine := Pattern.takes_many_one_iff.mp further
      exact .comment (List.forall_mem_append.mpr ⟨oneLine, continues⟩) stop
  | blank =>
      obtain ⟨more, rest, afterEq, continues, stop⟩ := run isBlank
      refine ⟨more, rest, afterEq, ?_⟩
      obtain ⟨first, others, rfl, blank, further⟩ := Pattern.takes_one_seq_iff.mp takes
      have inside := Pattern.takes_many_one_iff.mp further
      exact .blank blank (List.forall_mem_append.mpr ⟨inside, continues⟩) stop

/-- No kind starts where no lexeme is found. -/
theorem first?_eq_none_iff {before : Option Char} {text : List Char} :
    first? before text = none ↔ ∀ kind : LexemeKind, ¬ kind.Starts before text := by
  constructor
  · rintro missing kind ⟨stretch, after, rfl, takes⟩
    obtain ⟨more, rest, rfl, stands⟩ := exists_stands_of_takes takes
    have found := stands.first?_eq
    rw [List.append_assoc, missing] at found
    cases found
  · intro nowhere
    cases found : first? before text with
    | none => rfl
    | some first =>
        obtain ⟨rfl, stands⟩ := first?_eq_some_iff.mp found
        exact absurd ⟨_, _, rfl, stands.takes⟩ (nowhere first.1.kind)

/-- The lexeme that stands at a place is the one that wins there. -/
theorem Stands.wins {before : Option Char} {lexeme : Lexeme} {after : List Char}
    (stands : Stands before lexeme after) : Wins before lexeme after := by
  -- Whatever a pattern takes here belongs to the one lexeme that is found.
  have only {kind : LexemeKind} {stretch rest : List Char}
      (textEq : stretch ++ rest = lexeme.text ++ after)
      (takes : kind.pattern.Takes before stretch rest) :
      kind = lexeme.kind ∧ stretch.length ≤ lexeme.text.length := by
    obtain ⟨more, behind, rfl, other⟩ := exists_stands_of_takes takes
    have found := other.first?_eq
    rw [List.append_assoc, textEq, stands.first?_eq] at found
    cases found
    exact ⟨rfl, by simp⟩
  refine ⟨stands.takes, fun stretch rest textEq takes => (only textEq takes).2, ?_⟩
  rintro earlier later order kind member ⟨stretch, rest, textEq, takes⟩
  obtain ⟨rfl, _⟩ := only textEq.symm takes
  have apart : LexemeKind.alternatives.Nodup := by decide
  rw [order, List.nodup_append] at apart
  exact apart.2.2 _ member _ List.mem_cons_self rfl

end Lexeme

end Fieldmap
