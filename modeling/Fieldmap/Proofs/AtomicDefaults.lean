import Fieldmap.Proofs.Grammar.FieldsKept
import Fieldmap.Proofs.PastedBlock
import Fieldmap.Proofs.SplicedDefault

/-!
# Which blocks are read back

A pasted block is read back exactly when the names of its fields are identifiers and
every default is atomic: absent, an identifier other than `None`, or a number. Then the
record has the fields again, and they are written as the same block.

Any other default may make a mess of the text behind it. The first of them decides,
since the text in front of it is read as it was meant. One token is read as the default
there, and the record keeps what it was read as, so the default would have to be what
this token denotes. It is neither the token itself nor the text of a literal.
-/

namespace Fieldmap.Spec

open Text

/-! ## Up to a default -/

/-- The words of an entry up to its type. -/
def typedWords (field : Field) : List String :=
  [Mark.leftParen.text, field.name, Mark.comma.text, field.type.name]

/-- A line up to the type of its entry. -/
def typedChars (field : Field) : List Char :=
  List.replicate 8 ' ' ++ '(' :: (field.name.toList ++
    ',' :: ((pad field.name entryColumn).toList ++ field.type.name.toList))

/-- The words of a pasted text up to the comma in front of a default. -/
def frontWords (name structName : String) (before : List Field) (field : Field) : List String :=
  headWords name structName ++ before.flatMap lineWords ++ typedWords field ++ [Mark.comma.text]

theorem lineChars_eq (field : Field) :
    lineChars field = typedChars field ++ ',' :: ((pad field.type.name entryColumn).toList ++
      ((field.default.getD absentDefault).toList ++ [')', ',', '\n'])) := by
  simp [lineChars, toList_entryLine, typedChars]

theorem spells_typedChars {field : Field} (named : isIdentifier field.name.toList) :
    Spells (typedChars field) (typedWords field) := by
  have typed : Spells (field.type.name.toList ++ []) [field.type.name] :=
    .word (.identifier field.type.isIdentifier_name) rfl .nil
  rw [List.append_nil] at typed
  exact Spells.blanks (isBlank_replicate 8)
    (.mark .leftParen (.wordMark (.identifier named) .comma
      (.blanks (isBlank_pad field.name entryColumn) typed)))

/-- The next line begins with blanks and a mark, be it an entry or the end of the block. -/
theorem exists_nextLine (after : List Field) :
    ∃ gap mark more, (∀ c ∈ gap, isBlank c = true) ∧
      after.flatMap lineChars ++ (List.replicate 4 ' ' ++ ")\n\x7d\n".toList) =
        gap ++ Mark.char mark :: more := by
  cases after with
  | nil => exact ⟨List.replicate 4 ' ', .rightParen, _, isBlank_replicate 4, rfl⟩
  | cons field after =>
      obtain ⟨more, lineEq⟩ : ∃ more, lineChars field = List.replicate 8 ' ' ++ '(' :: more := by
        rw [lineChars_eq, typedChars, List.append_assoc]
        exact ⟨_, rfl⟩
      refine ⟨List.replicate 8 ' ', .leftParen, more ++ (after.flatMap lineChars ++
        (List.replicate 4 ' ' ++ ")\n\x7d\n".toList)), isBlank_replicate 8, ?_⟩
      rw [List.flatMap_cons, lineEq, List.append_assoc, List.append_assoc]
      rfl

/-- Behind a stretch that spells its words and a mark, blanks leave no trace, and then a text
is cut as it is by itself. -/
theorem exists_words_behind {stretch gap : List Char} {words : List String}
    (spells : Spells stretch words) (mark : Mark) (gapBlank : ∀ c ∈ gap, isBlank c = true)
    (rest : List Char) :
    ∃ last, (Lexemes.ofChars none (stretch ++ mark.char :: (gap ++ rest))).words =
      words ++ mark.text :: (Lexemes.ofChars last rest).words := by
  have ends : (mark.char :: (gap ++ rest)).head?.all endsWord = true := mark.endsWord_char
  have leading := spells.continues ends none nofun
  have parted : Lexeme.Stands (stretch.getLast?.or none) ⟨.mark, [mark.char]⟩ (gap ++ rest) :=
    .mark mark
  have whole := (leading.trans (Lexemes.continues_token parted rfl)).trans
    (Lexemes.continues_blanks gapBlank _ rest)
  have textEq : mark.text = String.ofList [mark.char] := String.singleton_eq_ofList
  rw [textEq]
  exact ⟨_, by simpa using whole.words_eq⟩

/-- The words of a pasted text up to a default are those of its entries, and then it is cut
as the default is in front of the rest of the text. -/
theorem exists_words_pasted {name structName : String} (named : isIdentifier name.toList)
    (structNamed : isIdentifier structName.toList) {before : List Field} {field : Field}
    (pastable : ∀ earlier ∈ before, Pastable earlier)
    (fieldNamed : isIdentifier field.name.toList) (after : List Field) :
    ∃ last gap mark more, (∀ c ∈ gap, isBlank c = true) ∧
      (Lexemes.ofChars none (pasted name structName (before ++ field :: after)).toList).words =
        frontWords name structName before field ++
          (Lexemes.ofChars last ((field.default.getD absentDefault).toList ++
            ')' :: ',' :: '\n' :: (gap ++ Mark.char mark :: more))).words := by
  obtain ⟨gap, mark, more, gapBlank, nextLine⟩ := exists_nextLine after
  have front := leads_entries named structNamed pastable _ _ (spells_typedChars fieldNamed)
  obtain ⟨last, wordsEq⟩ := exists_words_behind front .comma
    (isBlank_pad field.type.name entryColumn) ((field.default.getD absentDefault).toList ++
      ')' :: ',' :: '\n' :: (gap ++ Mark.char mark :: more))
  refine ⟨last, gap, mark, more, gapBlank, ?_⟩
  rw [frontWords, ← List.append_cons, ← wordsEq, toList_pasted, List.flatMap_append,
    List.flatMap_cons, List.append_assoc, List.append_assoc, nextLine, lineChars_eq]
  simp [Mark.char]

/-! ## Reading up to a default -/

/-- The reader gets to the default of an entry if those of the entries before it are bare. -/
theorem reads_typedWords {name structName : String} (named : isIdentifier name.toList)
    (structNamed : isIdentifier structName.toList) {before : List Field} {field : Field}
    (pastable : ∀ earlier ∈ before, Pastable earlier)
    (fieldNamed : isIdentifier field.name.toList) :
    ∃ draft, Phase.Reads .records ((frontWords name structName before field).map Token.bare)
      (.entry draft (before.map Field.unplaced) (.default (Token.bare field.name) field.type)) := by
  have record := reads_record (Token.isWord_bare "record") (Token.is_bare_identifier named)
    (Token.is_bare_mark .leftBrace)
  have item := DerivesItem.struct (Token.isWord_bare Item.struct.keyword)
    (.bare (Token.is_bare_identifier structNamed)) (Token.is_bare_mark .semicolon)
  have free : (Draft.empty .nowhere (Token.bare name)).has
      (ItemContent.struct structName).item = false := rfl
  have stillFree : ((Draft.empty .nowhere (Token.bare name)).add (.struct structName)).has
      .fieldmap = false := rfl
  have fieldmap := Draft.reads_fieldmap stillFree (Token.isWord_bare Item.fieldmap.keyword)
    (Token.is_bare_mark .leftParen)
  have start : BeforeEntry ((Draft.empty .nowhere (Token.bare name)).add (.struct structName)) []
      (.fieldmap _ []) := .first
  obtain ⟨phase, beforeEntry, entries⟩ := reads_entries (sequence_lines pastable) start
  have entry := beforeEntry.reads_default (Token.is_bare_mark .leftParen)
    (Token.is_bare_identifier fieldNamed) (Token.is_bare_mark .comma)
    (Token.isWord_bare field.type.name) (Token.is_bare_mark .comma)
  have whole := (((record.append (item.reads free)).append fieldmap).append entries).append entry
  exact ⟨_, by simpa [frontWords, headWords, typedWords] using whole⟩

/-! ## Only bare defaults are read back -/

/-- The token behind the comma of an entry is read as the entry's default, which the record
keeps. -/
theorem exists_derivesDefault_of_run {draft : Draft} {before : List Field} {name : Token}
    {type : FieldType} {token : Token} {rest : List Token} {record : Record}
    (run : State.run ⟨[], .entry draft before (.default name type)⟩ (token :: rest) =
      .ok ⟨[record], .finished⟩) :
    ∃ default, DerivesDefault token default ∧
      before ++ [⟨name.text, name.position, type, default⟩] <+: record.fields := by
  rw [State.run_cons] at run
  obtain ⟨middle, stepped, run⟩ := exists_of_bind_eq_ok run
  rcases State.step_eq_ok stepped with ⟨_, _, inBody, _⟩ | ⟨next, step, rfl⟩
  · cases inBody
  · obtain ⟨default, derived, rfl⟩ := derivesDefault_of_step step
    have keeps : (Phase.entry draft before
        (.close ⟨name.text, name.position, type, default⟩)).Keeps
        (before ++ [⟨name.text, name.position, type, default⟩]) := List.prefix_refl _
    obtain ⟨found, within, begins⟩ := keeps.exists_record run
    have same : found = record := by simpa using within
    rw [same] at begins
    exact ⟨default, derived, begins⟩

/-- What is read in place of a default is the default itself only if it is bare. -/
theorem bareDefault_of_derives {last : Option Char} {default : Option String}
    {gap more : List Char} {mark : Mark} (gapBlank : ∀ c ∈ gap, isBlank c = true)
    {word : String} {others : List String}
    (wordsEq : (Lexemes.ofChars last ((default.getD absentDefault).toList ++
      ')' :: ',' :: '\n' :: (gap ++ mark.char :: more))).words ++ [""] = word :: others)
    (derived : DerivesDefault (Token.bare word) default) : BareDefault default := by
  cases derived with
  | absent => exact .absent
  | identifier identifier present =>
      exact .identifier identifier fun same => present (Token.isWord_iff.mpr same)
  | number number => exact .number number
  | @quoted value denotes =>
      have quoted : isQuoted word.toList = true := denotes.1
      have longer := Literal.length_of_read denotes.2
      cases words : (Lexemes.ofChars last (value.toList ++
          ')' :: ',' :: '\n' :: (gap ++ mark.char :: more))).words with
      | nil =>
          rw [Option.getD_some, words] at wordsEq
          cases wordsEq
          cases quoted
      | cons first rest =>
          have within := length_of_spliced gapBlank words
          rw [Option.getD_some, words] at wordsEq
          cases wordsEq
          exact absurd longer (Nat.not_lt_of_le (Nat.le_succ_of_le (within quoted)))

/-- The first default that is not bare is not read back. -/
theorem bareDefault_of_read {name structName : String} (named : isIdentifier name.toList)
    (structNamed : isIdentifier structName.toList) {before after : List Field} {field : Field}
    (pastable : ∀ earlier ∈ before, Pastable earlier)
    (fieldNamed : isIdentifier field.name.toList) {record : Record}
    (result : read (pasted name structName (before ++ field :: after)) = .ok [record])
    (same : record.fields.map Field.unplaced =
      (before ++ field :: after).map Field.unplaced) : BareDefault field.default := by
  obtain ⟨last, gap, mark, more, gapBlank, wordsEq⟩ :=
    exists_words_pasted named structNamed pastable fieldNamed after
  obtain ⟨draft, reads⟩ := reads_typedWords named structNamed pastable fieldNamed
  have run := run_words_of_read result
  rw [wordsEq, List.append_assoc, List.map_append, State.run_append, State.initial,
    reads []] at run
  obtain ⟨word, others, tailEq⟩ : ∃ word others,
      (Lexemes.ofChars last ((field.default.getD absentDefault).toList ++
        ')' :: ',' :: '\n' :: (gap ++ mark.char :: more))).words ++ [""] = word :: others :=
    List.exists_cons_of_ne_nil (by simp)
  rw [tailEq] at run
  obtain ⟨default, derived, begins⟩ := exists_derivesDefault_of_run run
  have fieldsEq : (record.unplaced).fields = before.map Field.unplaced ++
      field.unplaced :: after.map Field.unplaced := by
    rw [← List.map_cons, ← List.map_append]
    exact same
  rw [fieldsEq, List.prefix_append_right_inj, List.cons_prefix_cons] at begins
  have defaultEq : default = field.default := congrArg Field.default begins.1
  rw [defaultEq] at derived
  exact bareDefault_of_derives gapBlank tailEq derived

/-! ## Reading a block back -/

/-- A record read from a pasted block names its fields by identifiers, and so did the block. -/
theorem isIdentifier_of_same {text : String} {record : Record} {fields : List Field}
    (result : read text = .ok [record])
    (same : record.fields.map Field.unplaced = fields.map Field.unplaced) :
    ∀ field ∈ fields, isIdentifier field.name.toList := by
  intro field member
  have inRecord : field.unplaced ∈ record.fields.map Field.unplaced := by
    rw [same]
    exact List.mem_map_of_mem member
  obtain ⟨taken, takenMem, takenEq⟩ := List.mem_map.mp inRecord
  have nameEq : taken.unplaced.name = field.unplaced.name := congrArg Field.name takenEq
  change taken.name = field.name at nameEq
  rw [← nameEq]
  exact (isIdentifier_of_read result record List.mem_cons_self).2 taken takenMem

/-- The fields of a block that is read back are pastable, the first ones first. -/
theorem pastable_of_read {name structName : String} (named : isIdentifier name.toList)
    (structNamed : isIdentifier structName.toList) {before after : List Field} {record : Record}
    (result : read (pasted name structName (before ++ after)) = .ok [record])
    (same : record.fields.map Field.unplaced = (before ++ after).map Field.unplaced)
    (pastable : ∀ field ∈ before, Pastable field) : ∀ field ∈ before ++ after, Pastable field := by
  induction after generalizing before with
  | nil => simpa using pastable
  | cons field after ih =>
      have fieldNamed := isIdentifier_of_same result same field (by simp)
      have bare := bareDefault_of_read named structNamed pastable fieldNamed result same
      have further : ∀ earlier ∈ before ++ [field], Pastable earlier :=
        List.forall_mem_append.mpr ⟨pastable, List.forall_mem_singleton.mpr ⟨fieldNamed, bare⟩⟩
      rw [List.append_cons] at result same ⊢
      exact ih result same further

theorem exists_read_of_pastable {name structName : String} (named : isIdentifier name.toList)
    (structNamed : isIdentifier structName.toList) {fields : List Field}
    (pastable : ∀ field ∈ fields, Pastable field) :
    ∃ record, read (pasted name structName fields) = .ok [record] ∧
      record.unplaced = pastedRecord name structName fields := by
  obtain ⟨placed, placedEq, readEq⟩ := exists_read_of_spells
    (spells_pasted named structNamed pastable) (derivesFile_pasted named structNamed pastable)
  obtain ⟨record, rfl, recordEq⟩ := List.map_eq_singleton_iff.mp placedEq
  exact ⟨record, readEq, recordEq⟩

/-- A block shows no positions. -/
theorem fieldmapBlock_congr {left right : List Field}
    (same : left.map Field.unplaced = right.map Field.unplaced) :
    fieldmapBlock left = fieldmapBlock right := by
  have unplaced (fields : List Field) :
      fieldmapBlock (fields.map Field.unplaced) = fieldmapBlock fields := by
    rw [fieldmapBlock, List.map_map]
    rfl
  rw [← unplaced left, same, unplaced right]

/-- A pasted block is read back as one record with its fields exactly when all of them are
pastable. The record is then the one that it is meant to be. Whenever the fields are read
back, they are written as the same block. -/
theorem read_pasted_iff {name structName : String} (named : isIdentifier name.toList)
    (structNamed : isIdentifier structName.toList) (fields : List Field) :
    ((∃ record, read (pasted name structName fields) = .ok [record] ∧
        record.fields.map Field.unplaced = fields.map Field.unplaced) ↔
      ∀ field ∈ fields, Pastable field) ∧
    ∀ record, read (pasted name structName fields) = .ok [record] →
      record.fields.map Field.unplaced = fields.map Field.unplaced →
        record.unplaced = pastedRecord name structName fields ∧
          fieldmapBlock record.fields = fieldmapBlock fields := by
  have onlyPastable {record : Record} (result : read (pasted name structName fields) = .ok [record])
      (same : record.fields.map Field.unplaced = fields.map Field.unplaced) :
      ∀ field ∈ fields, Pastable field := by
    rw [← List.nil_append fields] at result same ⊢
    exact pastable_of_read named structNamed result same nofun
  refine ⟨⟨?_, ?_⟩, ?_⟩
  · rintro ⟨record, result, same⟩
    exact onlyPastable result same
  · intro pastable
    obtain ⟨record, result, recordEq⟩ := exists_read_of_pastable named structNamed pastable
    exact ⟨record, result, congrArg Record.fields recordEq⟩
  · intro record result same
    obtain ⟨found, foundResult, foundEq⟩ :=
      exists_read_of_pastable named structNamed (onlyPastable result same)
    rw [result] at foundResult
    cases foundResult
    exact ⟨foundEq, fieldmapBlock_congr same⟩

/-- A number, a default that is absent, and one that holds a literal. -/
def literalFields : List Field := [
  ⟨"lat", .nowhere, .real, some "-1.5e"⟩, ⟨"name", .nowhere, .string, none⟩,
  ⟨"mode", .nowhere, .uinteger, some "\"0\""⟩]

/-- The first two are read back. The block of all of them is a fieldmap too, but the last
default loses its quotes. -/
theorem read_pasted_literalFields :
    isIdentifier "None".toList ∧ isIdentifier "record".toList ∧
    (∃ record, read (pasted "None" "record" (literalFields.take 2)) = .ok [record] ∧
      record.fields.map Field.unplaced = literalFields.take 2) ∧
    ¬ ∃ record, read (pasted "None" "record" literalFields) = .ok [record] ∧
      record.fields.map Field.unplaced = literalFields := by
  have named : isIdentifier "None".toList := by decide
  have structNamed : isIdentifier "record".toList := by decide
  refine ⟨named, structNamed, ?_, ?_⟩
  · refine (read_pasted_iff named structNamed (literalFields.take 2)).1.mpr ?_
    have number : Pastable ⟨"lat", .nowhere, .real, some "-1.5e"⟩ :=
      ⟨by decide, .number (by decide)⟩
    have absent : Pastable ⟨"name", .nowhere, .string, none⟩ := ⟨by decide, .absent⟩
    exact List.forall_mem_cons.mpr ⟨number, List.forall_mem_singleton.mpr absent⟩
  · intro readBack
    have pastable := (read_pasted_iff named structNamed literalFields).1.mp readBack
      ⟨"mode", .nowhere, .uinteger, some "\"0\""⟩ (by decide)
    cases pastable.default with
    | identifier identifier _ => revert identifier; decide
    | number number => revert number; decide

end Fieldmap.Spec
