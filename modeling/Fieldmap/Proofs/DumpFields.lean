import Fieldmap.DumpFormat
import Fieldmap.Proofs.Validity

/-!
# The fields of a dump format

Whatever a format looks like and whatever types are forced on its names, a field
taken from it is named by an identifier and has the usual default of its type. Only
the names may repeat.
-/

namespace Fieldmap

open Text

/-- A field as it is taken from a dump format. -/
structure Field.Dumped (field : Field) : Prop where
  identifier : isIdentifier field.name.toList
  nowhere : field.position = .nowhere
  default : field.default = field.type.defaultLiteral?

/-- Usual defaults fit their types. -/
theorem Field.Dumped.defaultFits {field : Field} (dumped : field.Dumped) : field.DefaultFits := by
  rcases field with ⟨name, position, type, default⟩
  have defaultEq : default = type.defaultLiteral? := dumped.default
  subst defaultEq
  cases type with
  | string => exact ⟨fun _ => rfl, fun different => absurd rfl different⟩
  | integer | uinteger => exact ⟨nofun, fun _ => ⟨"0", rfl, '0', by decide, by decide⟩⟩
  | real => exact ⟨nofun, fun _ => ⟨"0.0", rfl, '0', by decide, by decide⟩⟩
  | boolean => exact ⟨nofun, fun _ => ⟨"false", rfl, 'f', by decide, by decide⟩⟩

namespace DumpFormat

theorem dumped_of_field {overrides : Overrides} {whole entry : List Char} {taken : Field}
    (result : (field overrides whole entry).outcome = .ok taken) : taken.Dumped := by
  simp only [field] at result
  split at result
  case h_1 => cases result
  split at result
  case isFalse => cases result
  split at result
  case isTrue => cases result
  split at result
  case isFalse => cases result
  rename_i identifier
  obtain ⟨type, _, result⟩ := Traced.exists_of_outcome_bind result
  cases result
  exact ⟨by simpa using identifier, rfl, rfl⟩

theorem dumped_of_fieldsOf {overrides : Overrides} {whole : List Char}
    {entries : List (List Char)} {taken : List Field}
    (result : (fieldsOf overrides whole entries).outcome = .ok taken) :
    ∀ field ∈ taken, field.Dumped := by
  induction entries generalizing taken with
  | nil =>
      cases result
      nofun
  | cons entry rest ih =>
      obtain ⟨first, firstResult, result⟩ := Traced.exists_of_outcome_bind result
      obtain ⟨others, othersResult, result⟩ := Traced.exists_of_outcome_bind result
      cases result
      exact List.forall_mem_cons.mpr ⟨dumped_of_field firstResult, ih othersResult⟩

/-- All fields of a format are named and filled in as one is. -/
theorem dumped_of_fields {overrides : Overrides} {format : String} {taken : List Field}
    (result : (fields overrides format).outcome = .ok taken) : ∀ field ∈ taken, field.Dumped := by
  simp only [fields] at result
  split at result
  · cases result
  · obtain ⟨all, allResult, result⟩ := Traced.exists_of_outcome_bind result
    obtain ⟨_, _, result⟩ := Traced.exists_of_outcome_bind result
    cases result
    exact dumped_of_fieldsOf allResult

end DumpFormat

end Fieldmap
