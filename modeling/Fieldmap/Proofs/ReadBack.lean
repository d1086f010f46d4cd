import Fieldmap.Proofs.CompileSound
import Fieldmap.Proofs.Grammar.Completeness
import Fieldmap.Proofs.Relocation
import Fieldmap.Proofs.Spelling

/-!
# Reading spelled texts

What a text says depends on its tokens, and only the positions of the result depend
on where they stand. To know what a spelled text is compiled to, it is therefore
enough to derive records from its tokens taken out of the text.
-/

namespace Fieldmap

/-- A token that stands nowhere. -/
def Token.bare (word : String) : Token :=
  ⟨word, .nowhere⟩

/-- A field without its position. -/
def Field.unplaced (field : Field) : Field :=
  field.relocate fun _ => .nowhere

/-- A record without its positions. -/
def Record.unplaced (record : Record) : Record :=
  record.relocate fun _ => .nowhere

theorem Token.map_relocate_nowhere (tokens : List Token) :
    tokens.map (Token.relocate fun _ => .nowhere) = (tokens.map Token.text).map Token.bare := by
  rw [List.map_map]
  rfl

theorem Token.is_bare_mark (mark : Mark) : (Token.bare mark.text).is (.mark mark) = true := by
  simp [Token.is, TokenClass.accepts, Token.bare, Mark.text]

theorem Token.isWord_bare (word : String) : (Token.bare word).isWord word = true :=
  Token.isWord_iff.mpr rfl

theorem Token.is_bare_identifier {word : String} (identifier : Text.isIdentifier word.toList) :
    (Token.bare word).is .identifier = true :=
  identifier

namespace Spec

/-- The reader gets to the end of the words of a text that is read. -/
theorem run_words_of_read {text : String} {records : List Record}
    (result : read text = .ok records) :
    State.initial.run (((Lexemes.ofChars none text.toList).words ++ [""]).map Token.bare) =
      .ok ⟨records.map Record.unplaced, .finished⟩ := by
  obtain ⟨tokens, cut, result⟩ := exists_of_bind_eq_ok result
  obtain ⟨_, rfl⟩ := Token.ofText_eq_ok cut
  have moved := recordsOf_relocate (fun _ => .nowhere)
    (placedTokens .start (Lexemes.ofChars none text.toList).lexemes)
  rw [Token.map_relocate_nowhere, Lexemes.text_placedTokens, result] at moved
  exact (recordsOf_eq_ok_iff_run (by simp)).mp moved

/-- A spelled text is read as what its bare tokens derive. -/
theorem exists_read_of_spells {text : String} {words : List String} {records : List Record}
    (spells : Spells text.toList words)
    (derived : DerivesFile ((words ++ [""]).map Token.bare) records) :
    ∃ placed, placed.map Record.unplaced = records ∧ read text = .ok placed := by
  obtain ⟨tokens, cut, texts⟩ := spells.ofText
  have moved := recordsOf_relocate (fun _ => .nowhere) tokens
  rw [Token.map_relocate_nowhere, texts, derived.recordsOf_eq] at moved
  have readEq : read text = recordsOf tokens := by
    rw [read, cut]
    rfl
  rw [readEq]
  cases result : recordsOf tokens with
  | error error =>
      rw [result] at moved
      cases moved
  | ok placed =>
      rw [result] at moved
      exact ⟨placed, (Except.ok.inj moved).symm, rfl⟩

/-- A spelled text is compiled to what its bare tokens derive, if that passes its
check. -/
theorem compile_outcome_of_spells {text : String} {words : List String} {records : List Record}
    (spells : Spells text.toList words)
    (derived : DerivesFile ((words ++ [""]).map Token.bare) records) :
    ∃ placed, placed.map Record.unplaced = records ∧
      (compile text).outcome =
        match checkRecords records with
        | .error violation => .error (.violation violation)
        | .ok () => .ok placed := by
  obtain ⟨placed, recordsEq, readEq⟩ := exists_read_of_spells spells derived
  have checked : checkRecords records = checkRecords placed := by
    rw [← recordsEq]
    exact checkRecords_relocate (fun _ => .nowhere) placed
  have outcome := compile_outcome text
  rw [readEq] at outcome
  refine ⟨placed, recordsEq, ?_⟩
  rw [checked]
  exact outcome

/-- Stretches of bare words, each of which derives one value. -/
theorem Sequence.flatMap_bare {α β : Type} {derives : List Token → β → Prop} {sources : List α}
    {words : α → List String} {value : α → β}
    (each : ∀ source ∈ sources, derives ((words source).map Token.bare) (value source)) :
    Sequence derives ((sources.flatMap words).map Token.bare) (sources.map value) := by
  induction sources with
  | nil => exact .nil
  | cons source sources ih =>
      rw [List.flatMap_cons, List.map_append]
      refine .cons (each source List.mem_cons_self) (ih ?_)
      exact fun other member => each other (List.mem_cons_of_mem source member)

/-! ## Entries -/

/-- The tokens of the entry of a field whose default is spelled by one word. -/
def entryWords (field : Field) (value : String) : List String :=
  [Mark.leftParen.text, field.name, Mark.comma.text, field.type.name, Mark.comma.text, value,
    Mark.rightParen.text, Mark.comma.text]

theorem leads_entry {field : Field} {value : String} {typeGap valueGap : List Char}
    (named : Text.isIdentifier field.name.toList) (isWord : IsWord value.toList)
    (typeBlank : ∀ c ∈ typeGap, Text.isBlank c = true)
    (valueBlank : ∀ c ∈ valueGap, Text.isBlank c = true) :
    Leads ('(' :: (field.name.toList ++ ',' :: (typeGap ++ (field.type.name.toList ++
      ',' :: (valueGap ++ (value.toList ++ [')', ','])))))) (entryWords field value) := by
  intro text rest spells
  have valued := Spells.wordMark isWord .rightParen (.mark .comma spells)
  have typed := Spells.wordMark (.identifier field.type.isIdentifier_name) .comma
    (.blanks valueBlank valued)
  have opened := Spells.mark .leftParen
    (.wordMark (.identifier named) .comma (.blanks typeBlank typed))
  simp only [List.cons_append, List.append_assoc, List.nil_append]
  exact opened

theorem derivesEntry_bare {field : Field} {value : String}
    (named : Text.isIdentifier field.name.toList)
    (valued : DerivesDefault (Token.bare value) field.default) :
    DerivesEntry ((entryWords field value).map Token.bare) field.unplaced := by
  have comma := Token.is_bare_mark .comma
  have closed := DerivesClosedEntry.intro (Token.is_bare_mark .leftParen)
    (Token.is_bare_identifier named) comma (Token.isWord_bare field.type.name) comma valued
    (Token.is_bare_mark .rightParen)
  exact .intro closed (.present comma)

end Spec

end Fieldmap
