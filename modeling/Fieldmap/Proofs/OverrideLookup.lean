import Fieldmap.DumpFormat

/-!
# Overrides as functions of names

A dump format asks its overrides for nothing but the types of names. Two tables that give
every name the same type are therefore as good as one another, whatever entries they are
made of. Of the entries of one name only the last counts.
-/

namespace Fieldmap

/-- The type in the last of the entries of a name. -/
def lastType? (entries : List (String × FieldType)) (name : String) : Option FieldType :=
  entries.reverse.lookup name

namespace Overrides

theorem entries_insertAll (overrides : Overrides) (entries : List (String × FieldType)) :
    (overrides.insertAll entries).entries = entries.reverse ++ overrides.entries := by
  unfold insertAll
  induction entries generalizing overrides with
  | nil => rfl
  | cons entry rest ih =>
      rw [List.foldl_cons, ih, insert, List.reverse_cons, List.append_assoc]
      rfl

/-- Of the types given to a name the last holds, and without one what held before. -/
theorem find?_insertAll (overrides : Overrides) (entries : List (String × FieldType))
    (name : String) :
    (overrides.insertAll entries).find? name =
      (lastType? entries name).or (overrides.find? name) := by
  rw [find?, entries_insertAll, List.lookup_append]
  rfl

/-- Two tables that give every name the same type. -/
def Agree (left right : Overrides) : Prop :=
  ∀ name, left.find? name = right.find? name

theorem agree_insertAll (overrides : Overrides) {left right : List (String × FieldType)}
    (same : ∀ name, lastType? left name = lastType? right name) :
    (overrides.insertAll left).Agree (overrides.insertAll right) := by
  intro name
  rw [find?_insertAll, find?_insertAll, same name]

/-- The type of a field depends on its own override alone. -/
theorem resolve_congr {left right : Overrides} {name : String}
    (same : left.find? name = right.find? name) (specifier : Char) :
    left.resolve name specifier = right.resolve name specifier := by
  simp only [resolve, same]

end Overrides

namespace DumpFormat

variable {left right : Overrides}

theorem field_congr (agree : left.Agree right) (whole entry : List Char) :
    field left whole entry = field right whole entry := by
  simp only [field, Overrides.resolve_congr (agree _)]

theorem fieldsOf_congr (agree : left.Agree right) (whole : List Char)
    (entries : List (List Char)) :
    fieldsOf left whole entries = fieldsOf right whole entries := by
  induction entries with
  | nil => rfl
  | cons entry rest ih => rw [fieldsOf, fieldsOf, field_congr agree, ih]

/-- Tables that agree lead to the same fields, the same faults and the same events. -/
theorem fields_congr (agree : left.Agree right) (format : String) :
    fields left format = fields right format := by
  simp only [fields, fieldsOf_congr agree]

end DumpFormat

end Fieldmap
