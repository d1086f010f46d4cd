import Fieldmap.Proofs.TableContent
import Fieldmap.Proofs.TableRun
import Mathlib.Data.List.Nodup

/-!
# Where fields are kept

No two fields of a compiled record are kept in the same place. A buffered field is kept in
a variable of its own name, which has no point in it; any other field is kept in a member of
the structure, and members differ in their names. This takes all that is known of a compiled
record: names are identifiers, they differ, and only string fields are buffered. The text
that names the structure may be anything.
-/

namespace Fieldmap

open Text

namespace Record

variable {record : Record} {field left right : Field}

theorem target_of_mem (buffered : field.name ∈ record.buffered) :
    record.target field = field.name := by
  rw [target, if_pos buffered]

theorem target_of_not_mem (unbuffered : field.name ∉ record.buffered) :
    record.target field = record.structName ++ "." ++ field.name := by
  rw [target, if_neg unbuffered]

/-- An identifier names no member of a structure. -/
theorem ne_member_of_isIdentifier {name : String} (identifier : isIdentifier name.toList)
    (structName member : String) : name ≠ structName ++ "." ++ member := by
  have noPoint : '.' ∉ name.toList := not_mem_of_isIdentifier identifier (by decide)
  intro same
  apply noPoint
  rw [same]
  simp

namespace WellFormed

/-- Fields with the same target have the same name. -/
theorem name_eq_of_target_eq (wellFormed : record.WellFormed) (leftMem : left ∈ record.fields)
    (rightMem : right ∈ record.fields) (same : record.target left = record.target right) :
    left.name = right.name := by
  have leftNamed := wellFormed.fieldIdentifiers left leftMem
  have rightNamed := wellFormed.fieldIdentifiers right rightMem
  by_cases leftBuffered : left.name ∈ record.buffered
  · rw [target_of_mem leftBuffered] at same
    by_cases rightBuffered : right.name ∈ record.buffered
    · rwa [target_of_mem rightBuffered] at same
    · rw [target_of_not_mem rightBuffered] at same
      exact absurd same (ne_member_of_isIdentifier leftNamed _ _)
  · rw [target_of_not_mem leftBuffered] at same
    by_cases rightBuffered : right.name ∈ record.buffered
    · rw [target_of_mem rightBuffered] at same
      exact absurd same.symm (ne_member_of_isIdentifier rightNamed _ _)
    · rwa [target_of_not_mem rightBuffered, String.append_right_inj] at same

/-- A field is known by its name. -/
theorem eq_of_name_eq (wellFormed : record.WellFormed) (leftMem : left ∈ record.fields)
    (rightMem : right ∈ record.fields) (same : left.name = right.name) : left = right :=
  List.inj_on_of_nodup_map wellFormed.distinct leftMem rightMem same

theorem nodup_targets (wellFormed : record.WellFormed) :
    (record.fields.map record.target).Nodup := by
  apply List.Nodup.map_on
  · intro left leftMem right rightMem same
    exact wellFormed.eq_of_name_eq leftMem rightMem
      (wellFormed.name_eq_of_target_eq leftMem rightMem same)
  · exact wellFormed.distinct.of_map

/-- Only a string is kept under its bare name. -/
theorem type_eq_string (wellFormed : record.WellFormed) (member : field ∈ record.fields)
    (buffered : field.name ∈ record.buffered) : field.type = .string := by
  rcases wellFormed.buffered field.name buffered with ⟨other, otherMem, sameName, isString⟩
  rw [wellFormed.eq_of_name_eq member otherMem sameName.symm]
  exact isString

/-- A buffered name is the target of the field of that name. -/
theorem mem_targets (wellFormed : record.WellFormed) {name : String}
    (buffered : name ∈ record.buffered) : name ∈ record.fields.map record.target := by
  rcases wellFormed.buffered name buffered with ⟨field, member, named, _⟩
  rw [List.mem_map]
  refine ⟨field, member, ?_⟩
  rw [← named] at buffered ⊢
  exact target_of_mem buffered

end WellFormed

/-- A record whose fields are kept apart from each other. -/
structure StoredApart (record : Record) : Prop where
  /-- No two fields have the same target. -/
  distinct : (record.fields.map record.target).Nodup
  /-- The targets that are bare names are those of buffered fields. -/
  bare : ∀ field ∈ record.fields,
    record.target field = field.name ↔ field.name ∈ record.buffered
  /-- Only strings are buffered. -/
  strings : ∀ field ∈ record.fields, field.name ∈ record.buffered → field.type = .string
  /-- Every address that is taken is that of a member of the structure. -/
  members : ∀ field ∈ record.fields, field.type ≠ .string →
    record.target field = record.structName ++ "." ++ field.name ∧
      record.storageClause field =
        ".addr." ++ field.type.name ++ " = &" ++ record.structName ++ "." ++ field.name ++ ","
  /-- Every buffered name is the target of one field. -/
  once : ∀ name ∈ record.buffered, (record.fields.map record.target).count name = 1

theorem WellFormed.storedApart (wellFormed : record.WellFormed) : record.StoredApart := by
  constructor
  · exact wellFormed.nodup_targets
  · intro field _
    exact target_eq_name_iff
  · intro field member buffered
    exact wellFormed.type_eq_string member buffered
  · intro field member notString
    have unbuffered : field.name ∉ record.buffered :=
      fun buffered => notString (wellFormed.type_eq_string member buffered)
    have isMember := target_of_not_mem unbuffered
    refine ⟨isMember, ?_⟩
    rw [storageClause, if_neg notString, isMember]
    simp only [String.append_assoc]
    rfl
  · intro name buffered
    exact List.count_eq_one_of_mem wellFormed.nodup_targets (wellFormed.mem_targets buffered)

end Record

namespace Spec

/-- The fields of every record of a specification are kept apart from each other, whatever
its structure is called. -/
theorem storedApart_of_compile {text : String} {records : List Record}
    (compiled : (compile text).outcome = .ok records) :
    ∀ record ∈ records, record.StoredApart := by
  intro record member
  exact (wellFormed_of_compile compiled record member).storedApart

/-- A specification whose structures are called like a member and like nothing at all. -/
def oddStructsText : String :=
  "record a \x7b struct \"x.y\"; buffered (y,); fieldmap ((x, string, None) (y, string, None)\n" ++
    "(z, integer, -1)) \x7d record b \x7b struct \"\"; fieldmap ((x, real, 0)) \x7d"

/-- The first of its records. -/
def memberStructRecord : Record :=
  ⟨"a", ⟨1, 1⟩, none, "x.y",
    [⟨"x", ⟨1, 52⟩, .string, none⟩, ⟨"y", ⟨1, 70⟩, .string, none⟩,
      ⟨"z", ⟨2, 2⟩, .integer, some "-1"⟩], .ofList ["y"]⟩

/-- The second of its records. -/
def namelessStructRecord : Record :=
  ⟨"b", ⟨2, 21⟩, none, "", [⟨"x", ⟨2, 54⟩, .real, some "0"⟩], .empty⟩

theorem storedApart_oddStructsText :
    (compile oddStructsText).outcome = .ok [memberStructRecord, namelessStructRecord] ∧
    memberStructRecord.StoredApart ∧ namelessStructRecord.StoredApart := by
  have compiled : (compile oddStructsText).outcome =
      .ok [memberStructRecord, namelessStructRecord] := by
    decide +kernel
  have apart := storedApart_of_compile compiled
  exact ⟨compiled, apart _ (by simp), apart _ (by simp)⟩

end Spec

end Fieldmap
