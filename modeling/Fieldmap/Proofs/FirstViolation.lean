import Fieldmap.Proofs.Validity

/-!
# The rule that is reported

Records that are not valid together are refused for one rule, the first in a fixed order:
record by record, and within a record its name, the names of its fields, their defaults, and
its buffered names. Which rule that is is said here for each rule by itself: the rules in
front of it are kept, and it is broken.

Records behind the first one that is at fault therefore make no difference.
-/

namespace Fieldmap

open Text

/-! ## First violations -/

theorem refuseFirst_eq_error_iff {violations : List Violation} {violation : Violation} :
    refuseFirst violations = .error violation ↔ violations.head? = some violation := by
  cases violations <;> simp [refuseFirst]

theorem head?_append_eq_some_iff {α : Type} {left right : List α} {value : α} :
    (left ++ right).head? = some value ↔
      left.head? = some value ∨ left = [] ∧ right.head? = some value := by
  cases left <;> simp

/-- The first value of a list that a function maps to something. -/
theorem head?_filterMap_eq_some_iff {α β : Type} {f : α → Option β} {values : List α}
    {result : β} :
    (values.filterMap f).head? = some result ↔
      ∃ before value after, values = before ++ value :: after ∧
        (∀ earlier ∈ before, f earlier = none) ∧ f value = some result := by
  rw [List.head?_filterMap, List.findSome?_eq_some_iff]
  simp only [and_comm]

/-- Values are gone through with the names seen before each. What is found first is found
at a value, behind values at which nothing is found. -/
theorem head?_walk_eq_some_iff {α : Type} {nameOf : α → String}
    {own : List String → α → List Violation} {walk : List String → List α → List Violation}
    (walk_nil : ∀ seen, walk seen [] = [])
    (walk_cons : ∀ seen first rest,
      walk seen (first :: rest) = own seen first ++ walk (nameOf first :: seen) rest)
    {seen : List String} {values : List α} {violation : Violation} :
    (walk seen values).head? = some violation ↔
      ∃ before value after, values = before ++ value :: after ∧ walk seen before = [] ∧
        (own ((before.map nameOf).reverse ++ seen) value).head? = some violation := by
  induction values generalizing seen with
  | nil => simp [walk_nil]
  | cons first rest ih =>
      rw [walk_cons, head?_append_eq_some_iff, ih]
      constructor
      · intro found
        rcases found with own | ⟨nothing, before, value, after, restEq, none, own⟩
        · exact ⟨[], first, rest, rfl, walk_nil seen, own⟩
        · refine ⟨first :: before, value, after, by rw [restEq]; rfl, ?_, ?_⟩
          · rw [walk_cons, nothing, none]
            rfl
          · simpa using own
      · intro found
        rcases found with ⟨before, value, after, valuesEq, none, own⟩
        cases before with
        | nil =>
            cases valuesEq
            exact .inl own
        | cons other before =>
            cases valuesEq
            rw [walk_cons, List.append_eq_nil_iff] at none
            refine .inr ⟨none.1, before, value, after, rfl, none.2, ?_⟩
            simpa using own

/-- In an increasing list of names, what stands in front of a name is what is less. -/
theorem mem_front_iff {before after : List String} {name earlier : String}
    (increasing : (before ++ name :: after).Pairwise (· < ·)) :
    earlier ∈ before ↔ earlier ∈ before ++ name :: after ∧ earlier < name := by
  rw [List.pairwise_append, List.pairwise_cons] at increasing
  obtain ⟨_, ⟨nameLess, _⟩, frontLess⟩ := increasing
  constructor
  · intro member
    exact ⟨List.mem_append_left _ member, frontLess earlier member name List.mem_cons_self⟩
  · rintro ⟨member, less⟩
    rcases List.mem_append.mp member with inFront | inBack
    · exact inFront
    · rcases List.mem_cons.mp inBack with rfl | inAfter
      · exact absurd less (String.lt_irrefl earlier)
      · exact absurd (String.lt_trans less (nameLess earlier inAfter)) (String.lt_irrefl earlier)

/-! ## Rules of one record -/

/-- Fields with names of their own. -/
structure FieldsNamed (fields : List Field) : Prop where
  filled : ∀ field ∈ fields, field.name ≠ ""
  distinct : (fields.map Field.name).Nodup

/-- Why the default of a field does not fit its type. -/
inductive Field.DefaultBreaks (field : Field) : Violation → Prop where
  | string {value : String} : field.type = .string → field.default = some value →
      field.DefaultBreaks (.stringDefault field.name value)
  | blank {value : String} : field.type ≠ .string → field.default = some value →
      (∀ c ∈ value.toList, isBlank c = true) →
      field.DefaultBreaks (.blankDefault field.type field.name)
  | missing : field.type ≠ .string → field.default = none →
      field.DefaultBreaks (.missingDefault field.type field.name)

/-- Why a name cannot be buffered in a record. -/
inductive Record.BufferedBreaks (record : Record) (name : String) : Violation → Prop where
  | unknown : (∀ field ∈ record.fields, field.name ≠ name) →
      record.BufferedBreaks name (.unknownBuffered name record.name)
  | type {field : Field} : field ∈ record.fields → field.name = name → field.type ≠ .string →
      record.BufferedBreaks name (.bufferedType name field.type)

/-- The first rule that a record breaks. -/
inductive Record.BreaksFirst (record : Record) : Violation → Prop where
  | tableName : ¬ isIdentifier record.name.toList →
      record.BreaksFirst (.invalidTableName record.name)
  | emptyFieldName {before after : List Field} {field : Field} :
      isIdentifier record.name.toList → record.fields = before ++ field :: after →
      FieldsNamed before → field.name = "" →
      record.BreaksFirst (.emptyFieldName record.name)
  | duplicateField {before after : List Field} {field : Field} :
      isIdentifier record.name.toList → record.fields = before ++ field :: after →
      FieldsNamed before → field.name ∈ before.map Field.name →
      record.BreaksFirst (.duplicateField field.name record.name)
  | default {before after : List Field} {field : Field} {violation : Violation} :
      isIdentifier record.name.toList → FieldsNamed record.fields →
      record.fields = before ++ field :: after → (∀ earlier ∈ before, earlier.DefaultFits) →
      field.DefaultBreaks violation → record.BreaksFirst violation
  | buffered {name : String} {violation : Violation} :
      isIdentifier record.name.toList → FieldsNamed record.fields →
      (∀ field ∈ record.fields, field.DefaultFits) → name ∈ record.buffered →
      (∀ earlier ∈ record.buffered, earlier < name →
        ∃ field ∈ record.fields, field.name = earlier ∧ field.type = .string) →
      record.BufferedBreaks name violation → record.BreaksFirst violation

theorem fieldNameViolations_unseen_eq_nil_iff {table : String} {fields : List Field} :
    fieldNameViolations table [] fields = [] ↔ FieldsNamed fields := by
  rw [fieldNameViolations_eq_nil_iff, namedApart_unseen_iff]
  exact ⟨fun rules => ⟨rules.1, rules.2⟩, fun named => ⟨named.filled, named.distinct⟩⟩

/-- The first field that has no name of its own. -/
theorem head?_fieldNameViolations_eq_some_iff {table : String} {fields : List Field}
    {violation : Violation} :
    (fieldNameViolations table [] fields).head? = some violation ↔
      ∃ before field after, fields = before ++ field :: after ∧ FieldsNamed before ∧
        (field.name = "" ∧ violation = .emptyFieldName table ∨
          field.name ∈ before.map Field.name ∧ violation = .duplicateField field.name table) := by
  rw [head?_walk_eq_some_iff (fun _ => rfl) (fun _ _ _ => rfl)]
  simp only [fieldNameViolations_unseen_eq_nil_iff, List.append_nil, List.mem_reverse]
  refine exists_congr fun before => exists_congr fun field => exists_congr fun after =>
    and_congr_right fun _ => and_congr_right fun named => ?_
  -- An empty name is none of the names before.
  have notEmpty : "" ∉ before.map Field.name := by
    intro again
    obtain ⟨earlier, member, empty⟩ := List.mem_map.mp again
    exact named.filled earlier member empty
  by_cases empty : field.name = ""
  · simp [empty, notEmpty, eq_comm]
  · by_cases repeated : field.name ∈ before.map Field.name
    · simp [empty, repeated, eq_comm]
    · simp [empty, repeated]

theorem Field.defaultViolation?_eq_some_iff {field : Field} {violation : Violation} :
    field.defaultViolation? = some violation ↔ field.DefaultBreaks violation := by
  constructor
  · intro found
    unfold defaultViolation? at found
    split at found
    · cases found
    · rename_i value isString present
      cases found
      exact .string isString present
    · rename_i absent notString
      cases found
      exact .missing notString absent
    · rename_i value present notString
      split at found
      · rename_i blank
        cases found
        exact .blank notString present (trim_eq_nil_iff.mp blank)
      · cases found
  · intro breaks
    rcases field with ⟨name, position, type, default⟩
    cases breaks with
    | string isString present =>
        cases isString
        cases present
        rfl
    | blank notString present blank =>
        cases present
        have nothing := trim_eq_nil_iff.mpr blank
        cases type <;> simp_all [defaultViolation?]
    | missing notString absent =>
        cases absent
        cases type <;> simp_all [defaultViolation?]

namespace Record

variable {record : Record} {violation : Violation}

/-- Where the names of fields differ, a buffered name is judged by the field of that name. -/
theorem bufferedViolation?_eq_some_iff {name : String} (named : FieldsNamed record.fields) :
    record.bufferedViolation? name = some violation ↔ record.BufferedBreaks name violation := by
  have found (field : Field) :
      (record.fields.find? fun field => field.name == name) = some field ↔
        field ∈ record.fields ∧ field.name = name :=
    find?_field_eq_some_iff named.distinct
  unfold bufferedViolation?
  cases search : record.fields.find? fun field => field.name == name with
  | none =>
      have unknown : ∀ field ∈ record.fields, field.name ≠ name := by
        intro field member isNamed
        have present := (found field).mpr ⟨member, isNamed⟩
        rw [search] at present
        cases present
      constructor
      · intro reported
        cases reported
        exact .unknown unknown
      · intro breaks
        cases breaks with
        | unknown _ => rfl
        | type member isNamed _ => exact absurd isNamed (unknown _ member)
  | some field =>
      obtain ⟨member, isNamed⟩ := (found field).mp search
      constructor
      · intro reported
        dsimp only at reported
        split at reported
        · cases reported
        · rename_i notString
          cases reported
          exact .type member isNamed notString
      · intro breaks
        cases breaks with
        | unknown unknown => exact absurd isNamed (unknown field member)
        | @type other otherMember otherNamed notString =>
            have same := (found other).mpr ⟨otherMember, otherNamed⟩
            rw [search, Option.some.injEq] at same
            subst same
            exact if_neg notString

/-- The first buffered name, in the order of names, that cannot be buffered. -/
theorem head?_bufferedViolations_eq_some_iff (named : FieldsNamed record.fields) :
    (record.buffered.names.filterMap record.bufferedViolation?).head? = some violation ↔
      ∃ name ∈ record.buffered,
        (∀ earlier ∈ record.buffered, earlier < name →
          ∃ field ∈ record.fields, field.name = earlier ∧ field.type = .string) ∧
        record.BufferedBreaks name violation := by
  rw [head?_filterMap_eq_some_iff]
  simp only [bufferedViolation?_eq_none_iff named.distinct, bufferedViolation?_eq_some_iff named,
    ← NameSet.mem_names]
  have increasing := record.buffered.increasing
  constructor
  · rintro ⟨before, name, after, namesEq, kept, breaks⟩
    rw [namesEq] at increasing ⊢
    refine ⟨name, by simp, fun earlier member less => ?_, breaks⟩
    exact kept earlier ((mem_front_iff increasing).mpr ⟨member, less⟩)
  · rintro ⟨name, member, kept, breaks⟩
    obtain ⟨before, after, namesEq⟩ := List.append_of_mem member
    rw [namesEq] at increasing kept
    refine ⟨before, name, after, namesEq, fun earlier inFront => ?_, breaks⟩
    obtain ⟨earlierMem, less⟩ := (mem_front_iff increasing).mp inFront
    exact kept earlier earlierMem less

/-- The first violation of a record is the first rule that it breaks. -/
theorem head?_violations_eq_some_iff :
    record.violations.head? = some violation ↔ record.BreaksFirst violation := by
  have tableName : (if isIdentifier record.name.toList then []
      else [Violation.invalidTableName record.name]) = [] ↔
      isIdentifier record.name.toList = true := by
    split <;> simp_all
  have defaultsFit (fields : List Field) :
      (∀ field ∈ fields, field.defaultViolation? = none) ↔ ∀ field ∈ fields, field.DefaultFits :=
    forall₂_congr fun _ _ => Field.defaultViolation?_eq_none_iff
  simp only [violations, head?_append_eq_some_iff, List.append_eq_nil_iff, tableName,
    fieldNameViolations_unseen_eq_nil_iff, List.filterMap_eq_nil_iff, defaultsFit]
  constructor
  · rintro (((badName | ⟨identifier, names⟩) | ⟨⟨identifier, named⟩, defaults⟩) |
      ⟨⟨⟨identifier, named⟩, fits⟩, buffered⟩)
    · split at badName
      · cases badName
      · rename_i notIdentifier
        cases badName
        exact .tableName notIdentifier
    · obtain ⟨before, field, after, fieldsEq, named, ⟨empty, rfl⟩ | ⟨repeated, rfl⟩⟩ :=
        head?_fieldNameViolations_eq_some_iff.mp names
      · exact .emptyFieldName identifier fieldsEq named empty
      · exact .duplicateField identifier fieldsEq named repeated
    · obtain ⟨before, field, after, fieldsEq, earlierFit, breaks⟩ :=
        head?_filterMap_eq_some_iff.mp defaults
      exact .default identifier named fieldsEq ((defaultsFit before).mp earlierFit)
        (Field.defaultViolation?_eq_some_iff.mp breaks)
    · obtain ⟨name, member, kept, breaks⟩ :=
        (head?_bufferedViolations_eq_some_iff named).mp buffered
      exact .buffered identifier named fits member kept breaks
  · intro breaks
    cases breaks with
    | tableName notIdentifier => simp [notIdentifier]
    | emptyFieldName identifier fieldsEq named empty =>
        have first : (fieldNameViolations record.name [] record.fields).head? =
            some (.emptyFieldName record.name) :=
          head?_fieldNameViolations_eq_some_iff.mpr ⟨_, _, _, fieldsEq, named, .inl ⟨empty, rfl⟩⟩
        exact .inl (.inl (.inr ⟨identifier, first⟩))
    | @duplicateField _ _ field identifier fieldsEq named repeated =>
        have first : (fieldNameViolations record.name [] record.fields).head? =
            some (.duplicateField field.name record.name) :=
          head?_fieldNameViolations_eq_some_iff.mpr
            ⟨_, _, _, fieldsEq, named, .inr ⟨repeated, rfl⟩⟩
        exact .inl (.inl (.inr ⟨identifier, first⟩))
    | default identifier named fieldsEq earlierFit breaks =>
        have first := head?_filterMap_eq_some_iff.mpr ⟨_, _, _, fieldsEq,
          (defaultsFit _).mpr earlierFit, Field.defaultViolation?_eq_some_iff.mpr breaks⟩
        exact .inl (.inr ⟨⟨identifier, named⟩, first⟩)
    | buffered identifier named fits member kept breaks =>
        have first := (head?_bufferedViolations_eq_some_iff named).mpr ⟨_, member, kept, breaks⟩
        exact .inr ⟨⟨⟨identifier, named⟩, fits⟩, first⟩

end Record

/-! ## Rules of records together -/

/-- Why a record is refused behind tables with some names. -/
inductive Record.RefusedBehind (names : List String) (record : Record) : Violation → Prop where
  | duplicateTable : record.name ∈ names →
      record.RefusedBehind names (.duplicateTable record.name)
  | own {violation : Violation} : record.name ∉ names → record.BreaksFirst violation →
      record.RefusedBehind names violation

theorem tableViolations_unseen_eq_nil_iff {records : List Record} :
    tableViolations [] records = [] ↔ ValidTogether records := by
  rw [← refuseFirst_eq_ok_iff]
  exact checkRecords_eq_ok_iff_validTogether

/-- Records are refused for the first record that is at fault behind those before it. -/
theorem checkRecords_eq_error_iff {records : List Record} {violation : Violation} :
    checkRecords records = .error violation ↔
      ∃ before record after, records = before ++ record :: after ∧ ValidTogether before ∧
        record.RefusedBehind (before.map Record.name) violation := by
  -- What a record adds, behind tables with some names.
  let own (seen : List String) (record : Record) : List Violation :=
    (if record.name ∈ seen then [.duplicateTable record.name] else []) ++ record.violations
  have walk_cons (seen : List String) (first : Record) (rest : List Record) :
      tableViolations seen (first :: rest) =
        own seen first ++ tableViolations (first.name :: seen) rest := rfl
  rw [checkRecords, refuseFirst_eq_error_iff, head?_walk_eq_some_iff (fun _ => rfl) walk_cons]
  simp only [own, tableViolations_unseen_eq_nil_iff, List.append_nil, List.mem_reverse]
  refine exists_congr fun before => exists_congr fun record => exists_congr fun after =>
    and_congr_right fun _ => and_congr_right fun _ => ?_
  rw [head?_append_eq_some_iff, Record.head?_violations_eq_some_iff]
  by_cases repeated : record.name ∈ before.map Record.name
  · rw [if_pos repeated]
    constructor
    · rintro (duplicate | ⟨none, _⟩)
      · cases duplicate
        exact .duplicateTable repeated
      · cases none
    · intro refused
      cases refused with
      | duplicateTable _ => exact .inl rfl
      | own fresh _ => exact absurd repeated fresh
  · rw [if_neg repeated]
    constructor
    · rintro (none | ⟨_, breaks⟩)
      · cases none
      · exact .own repeated breaks
    · intro refused
      cases refused with
      | duplicateTable again => exact absurd again repeated
      | own _ breaks => exact .inr ⟨rfl, breaks⟩

/-- The check takes exactly the records that are valid together. Any others are refused for
the first record at fault and the first rule that it breaks, whatever records follow. -/
theorem checkRecords_first (records : List Record) :
    (checkRecords records = .ok () ↔ ValidTogether records) ∧
    (∀ violation, checkRecords records = .error violation ↔
      ∃ before record after, records = before ++ record :: after ∧ ValidTogether before ∧
        record.RefusedBehind (before.map Record.name) violation) ∧
    ∀ violation, checkRecords records = .error violation →
      ∃ before record after, records = before ++ record :: after ∧
        ∀ later, checkRecords (before ++ record :: later) = .error violation := by
  refine ⟨checkRecords_eq_ok_iff_validTogether, fun _ => checkRecords_eq_error_iff, ?_⟩
  intro violation refused
  obtain ⟨before, record, after, recordsEq, valid, atFault⟩ := checkRecords_eq_error_iff.mp refused
  exact ⟨before, record, after, recordsEq, fun later =>
    checkRecords_eq_error_iff.mpr ⟨before, record, later, rfl, valid, atFault⟩⟩

end Fieldmap
