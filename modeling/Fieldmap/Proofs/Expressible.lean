import Fieldmap.Proofs.QuotedLiteral
import Fieldmap.Proofs.ReadBack

/-!
# Every model can be written

Well formed records with different tables are written down as a specification that
is compiled to these very records. Headers, structures and defaults may hold any
text: they are written between quotes, and a default that happens to be spelled like
an absent one is not taken for it.
-/

namespace Fieldmap

open Text

/-- A text of blanks alone, with which parts of a text are set apart. -/
structure Gap where
  text : String
  blank : text.toList.all isBlank

theorem Gap.isBlank_of_mem (gap : Gap) : ∀ c ∈ gap.text.toList, isBlank c = true :=
  List.all_eq_true.mp gap.blank

namespace Spec

/-! ## Written records -/

/-- A default as it is written: between quotes, unless it is absent. -/
def writtenDefault : Option String → String
  | none => absentDefault
  | some value => quote value

/-- The entry of a field. -/
def writtenEntry (field : Field) : String :=
  "(" ++ field.name ++ ", " ++ field.type.name ++ ", " ++ writtenDefault field.default ++ "),"

/-- The header item, which is left out where there is no header. -/
def writtenHeader : Option String → String
  | none => ""
  | some header => "header " ++ quote header ++ "; "

/-- The structure item. -/
def writtenStruct (structName : String) : String :=
  "struct " ++ quote structName ++ "; "

/-- The item of buffered names, which is there even for no names. -/
def writtenBuffered (nameGap : Gap) (names : List String) : String :=
  "buffered (" ++ String.intercalate ("," ++ nameGap.text) names ++ "); "

/-- The fieldmap. -/
def writtenFieldmap (entryGap : Gap) (fields : List Field) : String :=
  "fieldmap ( " ++ String.intercalate entryGap.text (fields.map writtenEntry) ++ " ) "

/-- A record with all its items. -/
def writtenRecord (nameGap entryGap : Gap) (record : Record) : String :=
  "record " ++ record.name ++ " \x7b " ++
    writtenHeader record.header ++ writtenStruct record.structName ++
    writtenBuffered nameGap record.buffered.names ++ writtenFieldmap entryGap record.fields ++
    "\x7d"

/-- Records one behind the other. -/
def written (nameGap entryGap recordGap : Gap) (records : List Record) : String :=
  String.intercalate recordGap.text (records.map (writtenRecord nameGap entryGap))

/-! ## Their words -/

/-- The words of a header item. -/
def headerWords : Option String → List String
  | none => []
  | some header => [Item.header.keyword, quote header, Mark.semicolon.text]

/-- The words of a structure item. -/
def structWords (structName : String) : List String :=
  [Item.struct.keyword, quote structName, Mark.semicolon.text]

/-- The words of a list of names. -/
def nameWords : List String → List String
  | [] => []
  | first :: rest => first :: rest.flatMap fun name => [Mark.comma.text, name]

/-- The words of an item of buffered names. -/
def bufferedWords (names : List String) : List String :=
  [Item.buffered.keyword, Mark.leftParen.text] ++ nameWords names ++
    [Mark.rightParen.text, Mark.semicolon.text]

/-- The words of a field's entry. -/
def fieldWords (field : Field) : List String :=
  entryWords field (writtenDefault field.default)

/-- The words of a fieldmap. -/
def fieldmapWords (fields : List Field) : List String :=
  [Item.fieldmap.keyword, Mark.leftParen.text] ++ fields.flatMap fieldWords ++
    [Mark.rightParen.text]

/-- The words of a record. -/
def recordWords (record : Record) : List String :=
  ["record", record.name, Mark.leftBrace.text] ++
    (headerWords record.header ++ (structWords record.structName ++
      (bufferedWords record.buffered.names ++ fieldmapWords record.fields))) ++
    [Mark.rightBrace.text]

/-! ## Written records spell their words -/

theorem leads_intercalate {α : Type} {gap : Gap} {values : List α} {stretch : α → String}
    {words : α → List String}
    (each : ∀ value ∈ values, Leads (stretch value).toList (words value)) :
    Leads (String.intercalate gap.text (values.map stretch)).toList (values.flatMap words) := by
  intro text rest spells
  induction values with
  | nil => simpa using spells
  | cons first others ih =>
      have firstLeads := each first List.mem_cons_self
      have othersLead : ∀ value ∈ others, Leads (stretch value).toList (words value) :=
        fun value member => each value (List.mem_cons_of_mem first member)
      cases others with
      | nil => simpa using firstLeads text rest spells
      | cons second more =>
          have whole := firstLeads _ _ (.blanks gap.isBlank_of_mem (ih othersLead))
          simpa [String.intercalate_cons_cons] using whole

theorem isWord_quote (text : String) : IsWord (quote text).toList := by
  rw [toList_quote]
  exact isWord_quoteChars text.toList

theorem isWord_writtenDefault (default : Option String) :
    IsWord (writtenDefault default).toList := by
  cases default with
  | none => exact .identifier isIdentifier_absentDefault
  | some value => exact isWord_quote value

theorem leads_writtenEntry {field : Field} (named : isIdentifier field.name.toList) :
    Leads (writtenEntry field).toList (fieldWords field) := by
  have oneSpace : ∀ c ∈ [' '], isBlank c = true := by simp [isBlank_space]
  have leads := leads_entry named (isWord_writtenDefault field.default) oneSpace oneSpace
  simpa [writtenEntry, fieldWords] using leads

/-- Names spell themselves in front of the parenthesis that ends their list. -/
theorem spells_names (gap : Gap) {names : List String} {text : List Char}
    {words : List String}
    (identifiers : ∀ name ∈ names, isIdentifier name.toList = true) (spells : Spells text words) :
    Spells ((String.intercalate ("," ++ gap.text) names).toList ++ ')' :: text)
      (nameWords names ++ Mark.rightParen.text :: words) := by
  induction names with
  | nil => simpa [Mark.char, nameWords] using Spells.mark .rightParen spells
  | cons first others ih =>
      have firstIdentifier := identifiers first List.mem_cons_self
      cases others with
      | nil =>
          have whole := Spells.wordMark (.identifier firstIdentifier) .rightParen spells
          simpa [Mark.char, nameWords] using whole
      | cons second more =>
          have othersSpell := ih fun name member =>
            identifiers name (List.mem_cons_of_mem first member)
          have whole := Spells.wordMark (.identifier firstIdentifier) .comma
            (.blanks gap.isBlank_of_mem othersSpell)
          simpa [String.intercalate_cons_cons, Mark.char, nameWords] using whole

theorem isWord_keyword (item : Item) : IsWord item.keyword.toList :=
  .identifier item.isIdentifier_keyword

theorem leads_writtenHeader (header : Option String) :
    Leads (writtenHeader header).toList (headerWords header) := by
  intro text rest spells
  cases header with
  | none => simpa [writtenHeader, headerWords] using spells
  | some header =>
      have valued := Spells.wordMark (isWord_quote header) .semicolon (.blank isBlank_space spells)
      have whole := Spells.wordBlank (isWord_keyword .header) isBlank_space valued
      simpa [writtenHeader, headerWords, Mark.char, Item.keyword] using whole

theorem leads_writtenStruct (structName : String) :
    Leads (writtenStruct structName).toList (structWords structName) := by
  intro text rest spells
  have valued := Spells.wordMark (isWord_quote structName) .semicolon (.blank isBlank_space spells)
  have whole := Spells.wordBlank (isWord_keyword .struct) isBlank_space valued
  simpa [writtenStruct, structWords, Mark.char, Item.keyword] using whole

theorem leads_writtenBuffered (nameGap : Gap) {names : List String}
    (identifiers : ∀ name ∈ names, isIdentifier name.toList = true) :
    Leads (writtenBuffered nameGap names).toList (bufferedWords names) := by
  intro text rest spells
  have listed := spells_names nameGap identifiers (.mark .semicolon (.blank isBlank_space spells))
  have whole := Spells.wordBlank (isWord_keyword .buffered) isBlank_space (.mark .leftParen listed)
  simpa [writtenBuffered, bufferedWords, Mark.char, Item.keyword] using whole

theorem leads_writtenFieldmap (entryGap : Gap) {fields : List Field}
    (identifiers : ∀ field ∈ fields, isIdentifier field.name.toList = true) :
    Leads (writtenFieldmap entryGap fields).toList (fieldmapWords fields) := by
  intro text rest spells
  have entriesLead : Leads (String.intercalate entryGap.text (fields.map writtenEntry)).toList
      (fields.flatMap fieldWords) :=
    leads_intercalate fun field member => leads_writtenEntry (identifiers field member)
  have entries := entriesLead _ _
    (.blank isBlank_space (.mark .rightParen (.blank isBlank_space spells)))
  have whole := Spells.wordBlank (isWord_keyword .fieldmap) isBlank_space
    (.mark .leftParen (.blank isBlank_space entries))
  simpa [writtenFieldmap, fieldmapWords, Mark.char, Item.keyword] using whole

/-- The names of buffered fields are identifiers as those of all fields are. -/
theorem isIdentifier_buffered {record : Record} (wellFormed : record.WellFormed) :
    ∀ name ∈ record.buffered.names, isIdentifier name.toList = true := by
  intro name member
  obtain ⟨field, fieldMem, rfl, _⟩ := wellFormed.buffered name member
  exact wellFormed.fieldIdentifiers field fieldMem

theorem leads_writtenRecord (nameGap entryGap : Gap) {record : Record}
    (wellFormed : record.WellFormed) :
    Leads (writtenRecord nameGap entryGap record).toList (recordWords record) := by
  intro text rest spells
  have fieldmap := leads_writtenFieldmap entryGap wellFormed.fieldIdentifiers _ _
    (.mark .rightBrace spells)
  have buffered := leads_writtenBuffered nameGap (isIdentifier_buffered wellFormed) _ _ fieldmap
  have struct := leads_writtenStruct record.structName _ _ buffered
  have header := leads_writtenHeader record.header _ _ struct
  have whole := Spells.wordBlank (.identifier isIdentifier_recordKeyword) isBlank_space
    (.wordBlank (.identifier wellFormed.identifier) isBlank_space
      (.mark .leftBrace (.blank isBlank_space header)))
  simpa [writtenRecord, recordWords, Mark.char] using whole

/-! ## The words derive the record -/

theorem denotes_bare_quote (text : String) : Denotes (Token.bare (quote text)) text := by
  refine ⟨?_, Literal.read_quote text⟩
  simp [Token.is, TokenClass.accepts, Token.bare, isQuoted_quoteChars]

theorem derivesDefault_written (default : Option String) :
    DerivesDefault (Token.bare (writtenDefault default)) default := by
  cases default with
  | none => exact .absent (Token.isWord_bare absentDefault)
  | some value => exact .quoted (denotes_bare_quote value)

theorem derivesItem_header (header : Option String) :
    Sequence DerivesItem ((headerWords header).map Token.bare)
      (header.toList.map ItemContent.header) := by
  cases header with
  | none => exact .nil
  | some header =>
      have item := DerivesItem.header (Token.isWord_bare Item.header.keyword)
        (denotes_bare_quote header) (Token.is_bare_mark .semicolon)
      exact .cons item .nil

theorem derivesItem_struct (structName : String) :
    DerivesItem ((structWords structName).map Token.bare) (.struct structName) :=
  .struct (Token.isWord_bare Item.struct.keyword) (.quoted (denotes_bare_quote structName))
    (Token.is_bare_mark .semicolon)

theorem derivesNames_bare {names : List String}
    (identifiers : ∀ name ∈ names, isIdentifier name.toList = true) :
    DerivesNames ((nameWords names).map Token.bare) names := by
  cases names with
  | nil => exact .empty
  | cons first rest =>
      have more : Sequence DerivesNextName
          ((rest.flatMap fun name => [Mark.comma.text, name]).map Token.bare) (rest.map id) :=
        Sequence.flatMap_bare fun name member =>
          .intro (Token.is_bare_mark .comma)
            (Token.is_bare_identifier (identifiers name (List.mem_cons_of_mem first member)))
      rw [List.map_id] at more
      have listed := DerivesNames.listed
        (Token.is_bare_identifier (identifiers first List.mem_cons_self)) more .absent
      rwa [List.append_nil] at listed

theorem derivesItem_buffered {names : List String}
    (identifiers : ∀ name ∈ names, isIdentifier name.toList = true) :
    DerivesItem ((bufferedWords names).map Token.bare) (.buffered names) := by
  have item := DerivesItem.buffered (Token.isWord_bare Item.buffered.keyword)
    (Token.is_bare_mark .leftParen) (derivesNames_bare identifiers)
    (Token.is_bare_mark .rightParen) (Token.is_bare_mark .semicolon)
  simpa [bufferedWords] using item

theorem derivesItem_fieldmap {fields : List Field}
    (identifiers : ∀ field ∈ fields, isIdentifier field.name.toList = true) :
    DerivesItem ((fieldmapWords fields).map Token.bare)
      (.fieldmap (fields.map Field.unplaced)) := by
  have entries : Sequence DerivesEntry ((fields.flatMap fieldWords).map Token.bare)
      (fields.map Field.unplaced) :=
    Sequence.flatMap_bare fun field member =>
      derivesEntry_bare (identifiers field member) (derivesDefault_written field.default)
  have item := DerivesItem.fieldmap (Token.isWord_bare Item.fieldmap.keyword)
    (Token.is_bare_mark .leftParen) entries (Token.is_bare_mark .rightParen)
  simpa [fieldmapWords] using item

/-- What the items of a written record say. -/
def writtenItems (record : Record) : List ItemContent :=
  record.header.toList.map .header ++
    [.struct record.structName, .buffered record.buffered.names,
      .fieldmap (record.fields.map Field.unplaced)]

theorem gathers_writtenItems (record : Record) : Gathers record.unplaced (writtenItems record) where
  header text := by
    have headerEq : record.unplaced.header = record.header := rfl
    rw [headerEq]
    cases header : record.header <;> simp [writtenItems, header, eq_comm]
  struct := by simp [writtenItems, Record.unplaced, Record.relocate]
  fieldmap := by
    have fieldsEq : record.unplaced.fields = record.fields.map Field.unplaced := rfl
    simp [writtenItems, fieldsEq]
  buffered name := by
    have bufferedEq : record.unplaced.buffered = record.buffered := rfl
    simp [writtenItems, bufferedEq]

theorem derivesRecord_written {record : Record} (wellFormed : record.WellFormed) :
    DerivesRecord ((recordWords record).map Token.bare) record.unplaced := by
  have items : Sequence DerivesItem _ (writtenItems record) :=
    (derivesItem_header record.header).append
      (.cons (derivesItem_struct record.structName)
        (.cons (derivesItem_buffered (isIdentifier_buffered wellFormed))
          (.cons (derivesItem_fieldmap wellFormed.fieldIdentifiers) .nil)))
  have once : ((writtenItems record).map ItemContent.item).Nodup := by
    cases header : record.header <;> simp [writtenItems, header, ItemContent.item]
  have whole := DerivesRecord.intro
    (Token.isWord_bare "record")
    (Token.is_bare_identifier wellFormed.identifier)
    (Token.is_bare_mark .leftBrace) items (Token.is_bare_mark .rightBrace) once
    (gathers_writtenItems record) rfl rfl
  simpa [recordWords] using whole

/-- Every list of well formed records with different names is the meaning of its
written form, up to positions. -/
theorem compile_written (nameGap entryGap recordGap : Gap) {records : List Record}
    (distinct : (records.map Record.name).Nodup)
    (wellFormed : ∀ record ∈ records, record.WellFormed) :
    ∃ compiled, (compile (written nameGap entryGap recordGap records)).outcome = .ok compiled ∧
      compiled.map Record.unplaced = records.map Record.unplaced := by
  have spells : Spells (written nameGap entryGap recordGap records).toList
      (records.flatMap recordWords) :=
    (leads_intercalate fun record member =>
      leads_writtenRecord nameGap entryGap (wellFormed record member)).spells
  have derived : DerivesFile ((records.flatMap recordWords ++ [""]).map Token.bare)
      (records.map Record.unplaced) := by
    rw [List.map_append]
    exact .intro (Sequence.flatMap_bare fun record member =>
      derivesRecord_written (wellFormed record member)) rfl
  have checked : checkRecords (records.map Record.unplaced) = .ok () := by
    have valid : ValidTogether records :=
      ⟨distinct, fun record member => (wellFormed record member).toValid⟩
    exact (checkRecords_relocate (fun _ => .nowhere) records).trans
      (checkRecords_eq_ok_iff_validTogether.mpr valid)
  obtain ⟨compiled, placedEq, outcome⟩ := compile_outcome_of_spells spells derived
  rw [checked] at outcome
  exact ⟨compiled, outcome, placedEq⟩

/-- Records full of quotes, backslashes, line feeds, control characters and keywords,
with a present default that is spelled `None`. -/
def awkwardRecords : List Record := [
  ⟨"record", .nowhere, some "a \" b \\ c \n\x01 None", "",
    [⟨"None", .nowhere, .integer, some "None"⟩,
      ⟨"fieldmap", .nowhere, .real, some "\"),\n// \u2028é\x1f"⟩,
      ⟨"struct", .nowhere, .string, none⟩, ⟨"header", .nowhere, .string, none⟩],
    .ofList ["struct", "header"]⟩,
  ⟨"None", .nowhere, none, "None\t", [], .empty⟩]

theorem compile_awkwardRecords :
    (awkwardRecords.map Record.name).Nodup ∧ (∀ record ∈ awkwardRecords, record.WellFormed) ∧
    ∃ compiled,
      (compile (written ⟨" ", by decide⟩ ⟨"\n", by decide⟩ ⟨"", by decide⟩
        awkwardRecords)).outcome = .ok compiled ∧
      compiled.map Record.unplaced = awkwardRecords.map Record.unplaced :=
  ⟨by decide, by decide, compile_written _ _ _ (by decide) (by decide)⟩

end Spec

end Fieldmap
