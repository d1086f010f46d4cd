import Fieldmap.Record.Validity
import Mathlib.Data.List.TakeWhile

/-!
# What the check of records establishes

Records pass their check exactly when they are valid together. Validity is stated
here rule by rule; every rule matches one part of the list of violations, so a part
is empty exactly when its rule is kept.
-/

namespace Fieldmap

open Text

/-! ## Blank texts -/

namespace Text

theorem trimLeft_eq_nil_iff {text : List Char} :
    trimLeft text = [] ↔ ∀ c ∈ text, isBlank c = true := by
  simp [trimLeft]

/-- Nothing is left of a text exactly when all of it is blank. -/
theorem trim_eq_nil_iff {text : List Char} :
    trim text = [] ↔ ∀ c ∈ text, isBlank c = true := by
  rw [← trimLeft_eq_nil_iff]
  constructor
  · intro nothing
    have allBlank : ∀ c ∈ trimLeft text, isBlank c = true := by
      simpa [trim, trimRight] using nothing
    cases left : trimLeft text with
    | nil => rfl
    | cons first rest =>
        -- What is trimmed on the left does not begin with a blank.
        have ink : isBlank first = false := by
          have head := List.head?_dropWhile_not isBlank text
          rw [← trimLeft, left] at head
          simpa using head
        rw [left] at allBlank
        have blank := allBlank first List.mem_cons_self
        rw [ink] at blank
        cases blank
  · intro nothing
    simp [trim, trimRight, nothing]

end Text

/-! ## Rules -/

/-- A string has no default, and any other field has one that is not blank. -/
structure Field.DefaultFits (field : Field) : Prop where
  absent : field.type = .string → field.default = none
  present : field.type ≠ .string →
    ∃ value, field.default = some value ∧ ∃ c ∈ value.toList, isBlank c = false

/-- A record that keeps all the rules that are checked. -/
structure Record.Valid (record : Record) : Prop where
  identifier : isIdentifier record.name.toList
  filled : ∀ field ∈ record.fields, field.name ≠ ""
  distinct : (record.fields.map Field.name).Nodup
  defaults : ∀ field ∈ record.fields, field.DefaultFits
  buffered : ∀ name ∈ record.buffered,
    ∃ field ∈ record.fields, field.name = name ∧ field.type = .string

/-- Valid records whose tables have different names. -/
structure ValidTogether (records : List Record) : Prop where
  distinct : (records.map Record.name).Nodup
  each : ∀ record ∈ records, record.Valid

/-! ## Names seen before -/

/-- Values whose names differ from each other and from the names seen before. -/
structure NamedApart {α : Type} (nameOf : α → String) (seen : List String) (values : List α) :
    Prop where
  fresh : ∀ value ∈ values, nameOf value ∉ seen
  distinct : (values.map nameOf).Nodup

theorem namedApart_nil {α : Type} (nameOf : α → String) (seen : List String) :
    NamedApart nameOf seen [] :=
  ⟨nofun, .nil⟩

theorem namedApart_unseen_iff {α : Type} {nameOf : α → String} {values : List α} :
    NamedApart nameOf [] values ↔ (values.map nameOf).Nodup :=
  ⟨NamedApart.distinct, fun distinct => ⟨fun _ _ => List.not_mem_nil, distinct⟩⟩

/-- The first name is new, and the others are apart from it too. -/
theorem namedApart_cons_iff {α : Type} {nameOf : α → String} {seen : List String} {first : α}
    {others : List α} :
    NamedApart nameOf seen (first :: others) ↔
      nameOf first ∉ seen ∧ NamedApart nameOf (nameOf first :: seen) others := by
  constructor
  · intro apart
    have distinct := List.nodup_cons.mp apart.distinct
    constructor
    · exact apart.fresh first List.mem_cons_self
    · constructor
      · intro value member again
        rcases List.mem_cons.mp again with sameName | inSeen
        · exact distinct.1 (List.mem_map.mpr ⟨value, member, sameName⟩)
        · exact apart.fresh value (List.mem_cons_of_mem first member) inSeen
      · exact distinct.2
  · intro parts
    rcases parts with ⟨firstFresh, apart⟩
    constructor
    · intro value member
      rcases List.mem_cons.mp member with isFirst | inOthers
      · rw [isFirst]
        exact firstFresh
      · intro inSeen
        exact apart.fresh value inOthers (List.mem_cons_of_mem (nameOf first) inSeen)
    · apply List.nodup_cons.mpr
      constructor
      · intro again
        rcases List.mem_map.mp again with ⟨value, member, sameName⟩
        exact apart.fresh value member (sameName ▸ List.mem_cons_self)
      · exact apart.distinct

/-! ## Rules and violations -/

theorem fieldNameViolations_eq_nil_iff {table : String} {seen : List String}
    {fields : List Field} :
    fieldNameViolations table seen fields = [] ↔
      (∀ field ∈ fields, field.name ≠ "") ∧ NamedApart Field.name seen fields := by
  induction fields generalizing seen with
  | nil => simp [fieldNameViolations, namedApart_nil]
  | cons field rest ih =>
      have head : (if field.name = "" then [Violation.emptyFieldName table]
          else if field.name ∈ seen then [.duplicateField field.name table] else []) = [] ↔
          field.name ≠ "" ∧ field.name ∉ seen := by
        split
        · simp_all
        · split <;> simp_all
      rw [fieldNameViolations, List.append_eq_nil_iff, head, ih, List.forall_mem_cons,
        namedApart_cons_iff]
      exact and_and_and_comm

/-- Where no name is empty, the first violation of the rules for names is at the first
field whose name occurred before. -/
theorem exists_first_repeat {table : String} {seen : List String} {fields : List Field}
    {violation : Violation} {rest : List Violation} (filled : ∀ field ∈ fields, field.name ≠ "")
    (violations : fieldNameViolations table seen fields = violation :: rest) :
    ∃ before field after, fields = before ++ field :: after ∧
      NamedApart Field.name seen before ∧
      (field.name ∈ seen ∨ field.name ∈ before.map Field.name) ∧
      violation = .duplicateField field.name table := by
  induction fields generalizing seen with
  | nil => cases violations
  | cons first others ih =>
      rcases List.forall_mem_cons.mp filled with ⟨firstFilled, othersFilled⟩
      simp only [fieldNameViolations, firstFilled, if_false] at violations
      by_cases repeated : first.name ∈ seen
      · rw [if_pos repeated] at violations
        cases violations
        exact ⟨[], first, others, rfl, namedApart_nil _ seen, .inl repeated, rfl⟩
      · rw [if_neg repeated, List.nil_append] at violations
        rcases ih othersFilled violations with
          ⟨before, field, after, othersEq, apart, occurred, violationEq⟩
        have wholeApart : NamedApart Field.name seen (first :: before) :=
          namedApart_cons_iff.mpr ⟨repeated, apart⟩
        have occurredBefore :
            field.name ∈ seen ∨ field.name ∈ (first :: before).map Field.name := by
          rw [List.mem_cons] at occurred
          rw [List.map_cons, List.mem_cons]
          rcases occurred with (isFirst | inSeen) | inBefore
          · exact .inr (.inl isFirst)
          · exact .inl inSeen
          · exact .inr (.inr inBefore)
        subst othersEq
        exact ⟨first :: before, field, after, rfl, wholeApart, occurredBefore, violationEq⟩

theorem Field.defaultViolation?_eq_none_iff {field : Field} :
    field.defaultViolation? = none ↔ field.DefaultFits := by
  have visible (value : String) :
      trim value.toList ≠ [] ↔ ∃ c ∈ value.toList, isBlank c = false := by
    rw [ne_eq, trim_eq_nil_iff]
    simp
  rcases field with ⟨name, position, type, default⟩
  have rule : Field.DefaultFits ⟨name, position, type, default⟩ ↔
      (type = .string → default = none) ∧ (type ≠ .string →
        ∃ value, default = some value ∧ trim value.toList ≠ []) := by
    simp only [visible]
    exact ⟨fun fits => ⟨fits.absent, fits.present⟩, fun fits => ⟨fits.1, fits.2⟩⟩
  rw [rule]
  cases default with
  | none => cases type <;> simp [defaultViolation?]
  | some value => cases type <;> simp [defaultViolation?]

namespace Record

/-- Where the names of fields differ, a field is found by its name. -/
theorem find?_field_eq_some_iff {fields : List Field} (distinct : (fields.map Field.name).Nodup)
    {name : String} {field : Field} :
    (fields.find? fun field => field.name == name) = some field ↔
      field ∈ fields ∧ field.name = name := by
  induction fields with
  | nil => simp
  | cons first rest ih =>
      rw [List.map_cons, List.nodup_cons] at distinct
      rw [List.find?_cons]
      split
      · rename_i named
        rw [beq_iff_eq] at named
        constructor
        · intro found
          cases found
          exact ⟨List.mem_cons_self, named⟩
        · intro described
          rcases described with ⟨member, otherNamed⟩
          rcases List.mem_cons.mp member with rfl | member
          · rfl
          · have again : first.name ∈ rest.map Field.name := by
              rw [named, ← otherNamed]
              exact List.mem_map_of_mem member
            exact absurd again distinct.1
      · rename_i differs
        rw [ih distinct.2]
        constructor
        · intro described
          rcases described with ⟨member, named⟩
          exact ⟨List.mem_cons_of_mem first member, named⟩
        · intro described
          rcases described with ⟨member, rfl⟩
          rcases List.mem_cons.mp member with rfl | member
          · simp at differs
          · exact ⟨member, rfl⟩

theorem bufferedViolation?_eq_none_iff {record : Record} {name : String}
    (distinct : (record.fields.map Field.name).Nodup) :
    record.bufferedViolation? name = none ↔
      ∃ field ∈ record.fields, field.name = name ∧ field.type = .string := by
  have found (field : Field) :
      (record.fields.find? fun field => field.name == name) = some field ↔
        field ∈ record.fields ∧ field.name = name :=
    find?_field_eq_some_iff distinct
  simp only [bufferedViolation?]
  split
  · rename_i missing
    constructor
    · nofun
    · intro described
      rcases described with ⟨field, member, named, _⟩
      have present := (found field).mpr ⟨member, named⟩
      rw [missing] at present
      cases present
  · rename_i field present
    have own := (found field).mp present
    constructor
    · intro noViolation
      split at noViolation
      · rename_i isString
        exact ⟨field, own.1, own.2, isString⟩
      · cases noViolation
    · intro described
      rcases described with ⟨other, member, named, isString⟩
      have same := (found other).mpr ⟨member, named⟩
      rw [present, Option.some.injEq] at same
      subst same
      simp [isString]

/-- A record breaks no rule exactly when it is valid. -/
theorem violations_eq_nil_iff {record : Record} : record.violations = [] ↔ record.Valid := by
  have identifier : (if isIdentifier record.name.toList then []
      else [Violation.invalidTableName record.name]) = [] ↔
      isIdentifier record.name.toList = true := by
    split <;> simp_all
  simp only [violations, List.append_eq_nil_iff, identifier, fieldNameViolations_eq_nil_iff,
    namedApart_unseen_iff, List.filterMap_eq_nil_iff, Field.defaultViolation?_eq_none_iff,
    NameSet.mem_names]
  constructor
  · intro rules
    rcases rules with ⟨⟨⟨named, filled, distinct⟩, defaults⟩, buffered⟩
    exact ⟨named, filled, distinct, defaults, fun name member =>
      (bufferedViolation?_eq_none_iff distinct).mp (buffered name member)⟩
  · intro valid
    exact ⟨⟨⟨valid.identifier, valid.filled, valid.distinct⟩, valid.defaults⟩, fun name member =>
      (bufferedViolation?_eq_none_iff valid.distinct).mpr (valid.buffered name member)⟩

instance (record : Record) : Decidable record.Valid :=
  decidable_of_iff (record.violations = []) violations_eq_nil_iff

end Record

theorem tableViolations_eq_nil_iff {seen : List String} {records : List Record} :
    tableViolations seen records = [] ↔
      NamedApart Record.name seen records ∧ ∀ record ∈ records, record.Valid := by
  induction records generalizing seen with
  | nil => simp [tableViolations, namedApart_nil]
  | cons record rest ih =>
      have head : (if record.name ∈ seen then [Violation.duplicateTable record.name] else []) = [] ↔
          record.name ∉ seen := by
        split <;> simp_all
      rw [tableViolations, List.append_eq_nil_iff, List.append_eq_nil_iff, head,
        Record.violations_eq_nil_iff, ih, List.forall_mem_cons, namedApart_cons_iff]
      exact and_and_and_comm

theorem refuseFirst_eq_ok_iff {violations : List Violation} :
    refuseFirst violations = .ok () ↔ violations = [] := by
  cases violations <;> simp [refuseFirst]

/-- Records pass their check exactly when they are valid together. -/
theorem checkRecords_eq_ok_iff_validTogether {records : List Record} :
    checkRecords records = .ok () ↔ ValidTogether records := by
  rw [checkRecords, refuseFirst_eq_ok_iff, tableViolations_eq_nil_iff, namedApart_unseen_iff]
  exact ⟨fun rules => ⟨rules.1, rules.2⟩, fun valid => ⟨valid.distinct, valid.each⟩⟩

end Fieldmap
