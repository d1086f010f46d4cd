import Fieldmap.Proofs.CharClass
import Fieldmap.Proofs.DumpFields
import Mathlib.Data.List.Basic

/-!
# Entries of dump formats

An entry describes a field when, without the blanks around it, it is a key, a colon and
a value. The key is an identifier with at most one quote at either side, and the value
ends in the character of a known conversion. This says neither how an entry is trimmed
nor which colon ends its key. An entry is taken for the field that it describes; one
that describes none is refused for what it lacks.
-/

namespace Fieldmap

open Text

/-! ## Trimming -/

namespace Text

/-- A text with only blanks around its core, which has no blank at its ends. -/
structure Trims (text core : List Char) : Prop where
  around : ∃ front back, text = front ++ core ++ back ∧
    (∀ c ∈ front, isBlank c = true) ∧ ∀ c ∈ back, isBlank c = true
  first : core.head?.any isBlank = false
  last : core.getLast?.any isBlank = false

/-- A text without blanks at its ends is its own core. -/
theorem Trims.self {text : List Char} (first : text.head?.any isBlank = false)
    (last : text.getLast?.any isBlank = false) : Trims text text :=
  ⟨⟨[], [], (List.append_nil text).symm, nofun, nofun⟩, first, last⟩

theorem trim_eq_iff {text core : List Char} : trim text = core ↔ Trims text core := by
  constructor
  · rintro rfl
    have kept : trim text ++ ((trimLeft text).reverse.takeWhile isBlank).reverse =
        trimLeft text := by
      rw [trim, trimRight, ← List.reverse_append, List.takeWhile_append_dropWhile,
        List.reverse_reverse]
    refine ⟨⟨text.takeWhile isBlank, ((trimLeft text).reverse.takeWhile isBlank).reverse,
      ?_, List.all_eq_true.mp List.all_takeWhile, ?_⟩, ?_, ?_⟩
    · rw [List.append_assoc, kept]
      exact List.takeWhile_append_dropWhile.symm
    · intro c member
      exact List.all_eq_true.mp List.all_takeWhile c (List.mem_reverse.mp member)
    · have stop := head?_dropWhile_stop isBlank text
      rw [← trimLeft, ← kept] at stop
      cases coreEq : trim text with
      | nil => rfl
      | cons c rest => simpa [coreEq] using stop
    · rw [trim, trimRight, List.getLast?_reverse]
      exact head?_dropWhile_stop isBlank _
  · rintro ⟨⟨front, back, rfl, frontBlank, backBlank⟩, first, last⟩
    cases core with
    | nil =>
        rw [trim_eq_nil_iff, List.append_nil]
        exact List.forall_mem_append.mpr ⟨frontBlank, backBlank⟩
    | cons c rest =>
        have left : trimLeft (front ++ (c :: rest) ++ back) = (c :: rest) ++ back := by
          rw [trimLeft, List.append_assoc]
          exact dropWhile_append_stop frontBlank first
        rw [trim, left, trimRight, List.reverse_append]
        rw [dropWhile_append_stop (by simpa using backBlank) (by rwa [List.head?_reverse]),
          List.reverse_reverse]

/-- One character that may be left out. -/
def AtMostOne (c : Char) (text : List Char) : Prop :=
  text = [] ∨ text = [c]

end Text

/-! ## The grammar of entries -/

/-- The conversions and the types they stand for. -/
inductive FieldType.Conversion : Char → FieldType → Prop where
  | integer : Conversion 'd' .integer
  | uinteger : Conversion 'u' .uinteger
  | real : Conversion 'f' .real
  | string : Conversion '"' .string

theorem FieldType.ofSpecifier?_eq_some_iff {specifier : Char} {type : FieldType} :
    ofSpecifier? specifier = some type ↔ Conversion specifier type := by
  constructor
  · intro found
    unfold ofSpecifier? at found
    repeat' split at found
    all_goals
      cases found
      try subst specifier
    exacts [.integer, .uinteger, .real, .string]
  · rintro (_ | _ | _ | _) <;> rfl

namespace DumpFormat

/-- A name with at most one quote in front of it and at most one behind it. -/
def Quotes (key name : List Char) : Prop :=
  ∃ opening closing, AtMostOne '"' opening ∧ AtMostOne '"' closing ∧
    key = opening ++ name ++ closing

/-- The field of a name that is dumped as a type. -/
def dumpedField (overrides : Overrides) (name : String) (dumped : FieldType) : Field :=
  let type := (overrides.find? name).getD dumped
  ⟨name, .nowhere, type, type.defaultLiteral?⟩

/-- An entry describes the field that its key names, of the type that its last character
stands for unless another one is forced on the name. -/
inductive DescribesField (overrides : Overrides) (entry : List Char) : Field → Prop where
  | intro {key name value : List Char} {specifier : Char} {dumped : FieldType} :
      Trims entry (key ++ ':' :: value) → Quotes key name → isIdentifier name = true →
      value.getLast? = some specifier → FieldType.Conversion specifier dumped →
      DescribesField overrides entry (dumpedField overrides (String.ofList name) dumped)

/-- Why an entry of the format `whole` describes no field. -/
inductive EntryFault (whole entry : List Char) : FormatFault → Prop where
  | emptyEntry : Trims entry [] → EntryFault whole entry (.emptyEntry (String.ofList whole))
  | missingColon {core : List Char} : Trims entry core → core ≠ [] → ':' ∉ core →
      EntryFault whole entry (.missingColon (String.ofList core))
  | emptyName {key value : List Char} : Trims entry (key ++ ':' :: value) → Quotes key [] →
      EntryFault whole entry (.emptyName (String.ofList (key ++ ':' :: value)))
  | invalidName {key name value : List Char} : Trims entry (key ++ ':' :: value) → ':' ∉ key →
      Quotes key name → name ≠ [] → isIdentifier name = false →
      EntryFault whole entry (.invalidName (String.ofList name))
  | unknownSpecifier {key name value : List Char} {specifier : Char} :
      Trims entry (key ++ ':' :: value) → Quotes key name → isIdentifier name = true →
      (':' :: value).getLast? = some specifier →
      (∀ type, ¬ FieldType.Conversion specifier type) →
      EntryFault whole entry (.unknownSpecifier ⟨specifier, String.ofList name⟩)

/-! ## Optional characters -/

theorem exists_withoutFirst (c : Char) (text : List Char) :
    ∃ opening, AtMostOne c opening ∧ text = opening ++ withoutFirst c text := by
  unfold withoutFirst
  split
  · rename_i first
    exact ⟨[c], .inr rfl, (List.cons_head?_tail first).symm⟩
  · exact ⟨[], .inl rfl, rfl⟩

theorem exists_withoutLast (c : Char) (text : List Char) :
    ∃ closing, AtMostOne c closing ∧ text = withoutLast c text ++ closing := by
  unfold withoutLast
  split
  · rename_i last
    exact ⟨[c], .inr rfl, (List.dropLast_append_getLast? c last).symm⟩
  · exact ⟨[], .inl rfl, (List.append_nil text).symm⟩

theorem withoutFirst_append {c : Char} {opening rest : List Char} (one : AtMostOne c opening)
    (apart : rest.head? ≠ some c) : withoutFirst c (opening ++ rest) = rest := by
  rcases one with rfl | rfl
  · exact if_neg apart
  · exact if_pos rfl

theorem withoutLast_append {c : Char} {rest closing : List Char} (one : AtMostOne c closing)
    (apart : rest.getLast? ≠ some c) : withoutLast c (rest ++ closing) = rest := by
  rcases one with rfl | rfl
  · rw [List.append_nil]
    exact if_neg apart
  · simp [withoutLast]

/-- A name without the quotes that may stand next to it. -/
def unquoted (key : List Char) : List Char :=
  withoutLast '"' (withoutFirst '"' key)

theorem quotes_unquoted (key : List Char) : Quotes key (unquoted key) := by
  obtain ⟨opening, openingOne, keyEq⟩ := exists_withoutFirst '"' key
  obtain ⟨closing, closingOne, restEq⟩ := exists_withoutLast '"' (withoutFirst '"' key)
  refine ⟨opening, closing, openingOne, closingOne, ?_⟩
  rw [unquoted, List.append_assoc, ← restEq, ← keyEq]

/-- Quotes next to an identifier are taken off. -/
theorem unquoted_of_quotes {key name : List Char} (quotes : Quotes key name)
    (identifier : isIdentifier name = true) : unquoted key = name := by
  rcases quotes with ⟨opening, closing, openingOne, closingOne, rfl⟩
  have noQuote : '"' ∉ name := not_mem_of_isIdentifier identifier (by decide)
  have firstApart : (name ++ closing).head? ≠ some '"' := by
    intro first
    cases name with
    | nil => cases identifier
    | cons c rest =>
        cases Option.some.inj first
        exact noQuote List.mem_cons_self
  have lastApart : name.getLast? ≠ some '"' := fun last => noQuote (List.mem_of_getLast? last)
  rw [unquoted, List.append_assoc, withoutFirst_append openingOne firstApart,
    withoutLast_append closingOne lastApart]

/-- No colon stands in a name or in the quotes next to it. -/
theorem Quotes.colon_not_mem {key name : List Char} (quotes : Quotes key name)
    (apart : ':' ∉ name) : ':' ∉ key := by
  rcases quotes with ⟨opening, closing, openingOne, closingOne, rfl⟩
  have noColon {text : List Char} (one : AtMostOne '"' text) : ':' ∉ text := by
    rcases one with rfl | rfl <;> decide
  simp [noColon openingOne, noColon closingOne, apart]

/-! ## One entry -/

section

variable {overrides : Overrides} {whole entry key value : List Char}

/-- What a colon cuts. -/
theorem exists_eq_append_colon {core : List Char} (colon : ':' ∈ core) :
    ∃ value, core = core.takeWhile (· != ':') ++ ':' :: value ∧ ':' ∉ core.takeWhile (· != ':') := by
  have stop := head?_dropWhile_stop (· != ':') core
  have cut : core.takeWhile (· != ':') ++ core.dropWhile (· != ':') = core :=
    List.takeWhile_append_dropWhile
  have apart : ':' ∉ core.takeWhile (· != ':') := by
    intro member
    exact absurd (List.all_eq_true.mp List.all_takeWhile _ member) (by decide)
  cases behind : core.dropWhile (· != ':') with
  | nil =>
      rw [behind, List.append_nil] at cut
      rw [cut] at apart
      exact absurd colon apart
  | cons c value =>
      rw [behind] at cut stop
      obtain rfl : c = ':' := by simpa using stop
      exact ⟨value, cut.symm, apart⟩

/-- A conversion must be known, and then what is forced on the name goes first. -/
theorem outcome_resolve (name : String) (specifier : Char) :
    (overrides.resolve name specifier).outcome =
      match FieldType.ofSpecifier? specifier with
      | none => .error ⟨specifier, name⟩
      | some dumped => .ok ((overrides.find? name).getD dumped) := by
  unfold Overrides.resolve
  cases FieldType.ofSpecifier? specifier with
  | none => rfl
  | some dumped =>
      cases overrides.find? name with
      | none => rfl
      | some forced =>
          simp only
          split <;> rfl

/-- The field of a name that is dumped with a conversion. -/
def resolved (overrides : Overrides) (name : String) (specifier : Char) :
    Traced FormatFault Field := do
  let type ← (overrides.resolve name specifier).mapError .unknownSpecifier
  return ⟨name, .nowhere, type, type.defaultLiteral?⟩

theorem outcome_resolved (name : String) (specifier : Char) :
    (resolved overrides name specifier).outcome =
      match FieldType.ofSpecifier? specifier with
      | none => .error (.unknownSpecifier ⟨specifier, name⟩)
      | some dumped => .ok (dumpedField overrides name dumped) := by
  rw [resolved, Traced.outcome_bind, Traced.outcome_mapError, outcome_resolve]
  cases FieldType.ofSpecifier? specifier <;> rfl

theorem field_of_blank (trims : Trims entry []) :
    field overrides whole entry = .fail (.emptyEntry (String.ofList whole)) := by
  simp only [field, trim_eq_iff.mpr trims]
  rfl

theorem field_of_colon_not_mem {core : List Char} (trims : Trims entry core)
    (filled : core ≠ []) (apart : ':' ∉ core) :
    field overrides whole entry = .fail (.missingColon (String.ofList core)) := by
  simp only [field, trim_eq_iff.mpr trims, List.getLast?_eq_some_getLast filled, apart, ↓reduceIte]

/-- Once its key is found, an entry is taken by its name and its last character. -/
theorem field_of_colon {specifier : Char} (trims : Trims entry (key ++ ':' :: value))
    (apart : ':' ∉ key) (last : (':' :: value).getLast? = some specifier) :
    field overrides whole entry =
      if unquoted key = [] then .fail (.emptyName (String.ofList (key ++ ':' :: value)))
      else if isIdentifier (unquoted key) then
        resolved overrides (String.ofList (unquoted key)) specifier
      else .fail (.invalidName (String.ofList (unquoted key))) := by
  have inKey : ∀ c ∈ key, (c != ':') = true := by
    intro c member
    refine bne_iff_ne.mpr ?_
    rintro rfl
    exact apart member
  have keyEq : (key ++ ':' :: value).takeWhile (· != ':') = key :=
    takeWhile_append_stop inKey rfl
  have lastEq : (key ++ ':' :: value).getLast? = some specifier := by
    rw [List.getLast?_append, last, Option.some_or]
  have colon : ':' ∈ key ++ ':' :: value := by simp
  simp only [field, trim_eq_iff.mpr trims, lastEq, colon, ↓reduceIte, keyEq]
  rfl

/-- The last character of an entry stands behind its colon, or is the colon. -/
theorem getLast?_of_ne_colon {specifier : Char} (last : (':' :: value).getLast? = some specifier)
    (notColon : specifier ≠ ':') : value.getLast? = some specifier := by
  rw [List.getLast?_cons] at last
  cases valueLast : value.getLast? with
  | none =>
      rw [valueLast] at last
      exact absurd (Option.some.inj last).symm notColon
  | some c => rwa [valueLast] at last

/-- An entry is blank, has no colon, or is cut at its first one. -/
theorem entry_cases (entry : List Char) :
    Trims entry [] ∨ (∃ core, Trims entry core ∧ core ≠ [] ∧ ':' ∉ core) ∨
      ∃ key value specifier, Trims entry (key ++ ':' :: value) ∧ ':' ∉ key ∧
        (':' :: value).getLast? = some specifier := by
  have trims : Trims entry (trim entry) := trim_eq_iff.mp rfl
  by_cases empty : trim entry = []
  · rw [empty] at trims
    exact .inl trims
  · by_cases colon : ':' ∈ trim entry
    · obtain ⟨value, coreEq, apart⟩ := exists_eq_append_colon colon
      rw [coreEq] at trims
      exact .inr (.inr ⟨_, value, _, trims, apart, List.getLast?_cons⟩)
    · exact .inr (.inl ⟨_, trims, empty, colon⟩)

/-- An entry is taken for the field that it describes, and for none if it describes none. -/
theorem outcome_field_eq_ok_iff {taken : Field} :
    (field overrides whole entry).outcome = .ok taken ↔ DescribesField overrides entry taken := by
  constructor
  · intro result
    rcases entry_cases entry with trims | ⟨core, trims, filled, apart⟩ |
      ⟨key, value, specifier, trims, apart, last⟩
    · rw [field_of_blank trims] at result
      cases result
    · rw [field_of_colon_not_mem trims filled apart] at result
      cases result
    · rw [field_of_colon trims apart last] at result
      split at result
      · cases result
      split at result
      · rename_i identifier
        rw [outcome_resolved] at result
        split at result
        · cases result
        · rename_i dumped known
          cases result
          have conversion := FieldType.ofSpecifier?_eq_some_iff.mp known
          have notColon : specifier ≠ ':' := by
            rintro rfl
            cases conversion
          exact .intro trims (quotes_unquoted key) identifier
            (getLast?_of_ne_colon last notColon) conversion
      · cases result
  · rintro ⟨trims, quotes, identifier, last, conversion⟩
    rename_i key name value specifier dumped
    have apart := quotes.colon_not_mem (not_mem_of_isIdentifier identifier (by decide))
    have filled : name ≠ [] := by
      rintro rfl
      cases identifier
    have entryLast : (':' :: value).getLast? = some specifier := by
      rw [List.getLast?_cons, last, Option.getD_some]
    rw [field_of_colon trims apart entryLast, unquoted_of_quotes quotes identifier,
      if_neg filled, if_pos identifier, outcome_resolved,
      FieldType.ofSpecifier?_eq_some_iff.mpr conversion]

theorem entryFault_of_outcome_field {fault : FormatFault}
    (refused : (field overrides whole entry).outcome = .error fault) :
    EntryFault whole entry fault := by
  rcases entry_cases entry with trims | ⟨core, trims, filled, apart⟩ |
    ⟨key, value, specifier, trims, apart, last⟩
  · rw [field_of_blank trims] at refused
    cases refused
    exact .emptyEntry trims
  · rw [field_of_colon_not_mem trims filled apart] at refused
    cases refused
    exact .missingColon trims filled apart
  · have quotes := quotes_unquoted key
    rw [field_of_colon trims apart last] at refused
    split at refused
    · rename_i empty
      cases refused
      rw [empty] at quotes
      exact .emptyName trims quotes
    split at refused
    · rename_i identifier
      rw [outcome_resolved] at refused
      split at refused
      · rename_i unknown
        cases refused
        refine .unknownSpecifier trims quotes identifier last ?_
        intro type conversion
        rw [FieldType.ofSpecifier?_eq_some_iff.mpr conversion] at unknown
        cases unknown
      · cases refused
    · rename_i filled other
      cases refused
      exact .invalidName trims apart quotes filled (by simpa using other)

end

end DumpFormat

end Fieldmap
