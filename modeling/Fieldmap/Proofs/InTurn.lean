import Fieldmap.Traced
import Mathlib.Data.List.Forall2

/-!
# Computations that go through a list

A computation that goes through a list in order reports what its steps report, up to the
first one that fails. Where all steps succeed, it joins what they get.
-/

namespace Fieldmap

/-- A computation that goes through a list in order and joins what it gets. -/
structure InTurn {ε α β : Type} (step : α → Traced ε β) (join : β → β → β) (none : β)
    (walk : List α → Traced ε β) : Prop where
  nil : walk [] = pure none
  cons : ∀ first rest, walk (first :: rest) = do
    let value ← step first
    let others ← walk rest
    return join value others

namespace InTurn

variable {ε α β : Type} {step : α → Traced ε β} {join : β → β → β} {none : β}
  {walk : List α → Traced ε β} {events : α → List Event}

/-- Where every step succeeds, all results are joined, and all events are reported. -/
theorem of_ok (inTurn : InTurn step join none walk) {values : List α} {results : List β}
    (each : List.Forall₂ (fun value result => step value = ⟨.ok result, events value⟩)
      values results) :
    walk values = ⟨.ok (results.foldr join none), values.flatMap events⟩ := by
  induction each with
  | nil => exact inTurn.nil
  | cons first _ ih =>
      rw [inTurn.cons, first, ih]
      simp

/-- The first step that fails ends it, behind the events of the steps before and its own. -/
theorem of_error (inTurn : InTurn step join none walk) {before after : List α} {value : α}
    {error : ε} {own : List Event}
    (each : ∀ earlier ∈ before, ∃ result, step earlier = ⟨.ok result, events earlier⟩)
    (failed : step value = ⟨.error error, own⟩) :
    walk (before ++ value :: after) = ⟨.error error, before.flatMap events ++ own⟩ := by
  induction before with
  | nil =>
      rw [List.nil_append, inTurn.cons, failed]
      rfl
  | cons first rest ih =>
      rcases List.forall_mem_cons.mp each with ⟨⟨result, succeeded⟩, restEach⟩
      rw [List.cons_append, inTurn.cons, succeeded, ih restEach]
      simp

end InTurn

/-- What each value of a list is related to makes a list of its own. -/
theorem exists_forall₂ {α β : Type} {related : α → β → Prop} {values : List α}
    (each : ∀ value ∈ values, ∃ result, related value result) :
    ∃ results, List.Forall₂ related values results := by
  induction values with
  | nil => exact ⟨[], .nil⟩
  | cons first rest ih =>
      rcases List.forall_mem_cons.mp each with ⟨⟨result, isRelated⟩, restEach⟩
      rcases ih restEach with ⟨results, restRelated⟩
      exact ⟨result :: results, .cons isRelated restRelated⟩

/-- Where a property fails in a list, it fails first somewhere. -/
theorem exists_first_of_not_forall {α : Type} {property : α → Prop} {values : List α}
    (fails : ¬ ∀ value ∈ values, property value) :
    ∃ before value after, values = before ++ value :: after ∧
      (∀ earlier ∈ before, property earlier) ∧ ¬ property value := by
  induction values with
  | nil => exact absurd (fun _ => nofun) fails
  | cons first rest ih =>
      by_cases holds : property first
      · rw [List.forall_mem_cons, not_and] at fails
        rcases ih (fails holds) with ⟨before, value, after, rfl, earlier, failsHere⟩
        exact ⟨first :: before, value, after, rfl, List.forall_mem_cons.mpr ⟨holds, earlier⟩,
          failsHere⟩
      · exact ⟨[], first, rest, rfl, nofun, holds⟩

end Fieldmap
