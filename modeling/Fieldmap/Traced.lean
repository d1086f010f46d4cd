import Fieldmap.Event

/-!
# Traced computations

A traced computation has an outcome, a value or an error, and the events reported
on the way to it. An error keeps the events before it and stops what would follow.
-/

namespace Fieldmap

/-! ## Results -/

/-- Two stages only succeed one behind the other. -/
theorem exists_of_bind_eq_ok {ε α β : Type} {first : Except ε α} {next : α → Except ε β}
    {value : β} (result : first >>= next = .ok value) :
    ∃ middle, first = .ok middle ∧ next middle = .ok value := by
  cases first with
  | error error => cases result
  | ok middle => exact ⟨middle, rfl, result⟩

/-- Two stages fail as the first one does, or as the second one does behind it. -/
theorem eq_error_of_bind_eq_error {ε α β : Type} {first : Except ε α} {next : α → Except ε β}
    {error : ε} (result : first >>= next = .error error) :
    first = .error error ∨ ∃ middle, first = .ok middle ∧ next middle = .error error := by
  cases first with
  | error found => exact .inl (congrArg Except.error (Except.error.inj result))
  | ok middle => exact .inr ⟨middle, rfl, result⟩

/-- A restated value is the value of a result. -/
theorem exists_of_map_eq_ok {ε α β : Type} {result : Except ε α} {restate : α → β} {value : β}
    (mapped : result.map restate = .ok value) :
    ∃ original, result = .ok original ∧ restate original = value := by
  cases result with
  | error error => cases mapped
  | ok original => exact ⟨original, rfl, Except.ok.inj mapped⟩

/-- A restated error leaves every value alone. -/
@[simp] theorem mapError_eq_ok_iff {ε ε' α : Type} {result : Except ε α} {restate : ε → ε'}
    {value : α} : result.mapError restate = .ok value ↔ result = .ok value := by
  cases result with
  | error error => exact iff_of_false nofun nofun
  | ok found =>
      constructor <;>
        intro same <;>
        cases same <;>
        rfl

/-- A result that is an error only with a property. -/
def FailsWith {ε α : Type} (property : ε → Prop) (result : Except ε α) : Prop :=
  ∀ error, result = .error error → property error

namespace FailsWith

variable {ε α β : Type} {property : ε → Prop}

theorem ok (value : α) : FailsWith property (.ok value) := nofun

theorem error {error : ε} (holds : property error) :
    FailsWith property (.error error : Except ε α) := by
  rintro _ ⟨⟩
  exact holds

/-- Each branch of a choice may use how the choice was made. -/
theorem ite {condition : Prop} [Decidable condition] {yes no : Except ε α}
    (yesFails : condition → FailsWith property yes)
    (noFails : ¬ condition → FailsWith property no) :
    FailsWith property (if condition then yes else no) := by
  split
  · rename_i holds
    exact yesFails holds
  · rename_i fails
    exact noFails fails

theorem bind {first : Except ε α} {next : α → Except ε β} (firstFails : FailsWith property first)
    (nextFails : ∀ value, FailsWith property (next value)) :
    FailsWith property (first >>= next) := by
  cases first with
  | error found => exact error (firstFails found rfl)
  | ok value => exact nextFails value

end FailsWith

/-! ## Computations -/

/-- A value or an error, and the events reported before it. -/
structure Traced (ε α : Type) where
  outcome : Except ε α
  events : List Event

namespace Traced

variable {ε ε' α β : Type}

/-- A value without events. -/
def ok (value : α) : Traced ε α := ⟨.ok value, []⟩

/-- An error without events. -/
def fail (error : ε) : Traced ε α := ⟨.error error, []⟩

/-- A result without events. -/
def ofExcept (outcome : Except ε α) : Traced ε α := ⟨outcome, []⟩

/-- Report one event. -/
def report (event : Event) : Traced ε Unit := ⟨.ok (), [event]⟩

/-- Go on with the value of a computation, if it has one. -/
def andThen (first : Traced ε α) (next : α → Traced ε β) : Traced ε β :=
  match first.outcome with
  | .error error => ⟨.error error, first.events⟩
  | .ok value => ⟨(next value).outcome, first.events ++ (next value).events⟩

/-- Restate the error of a computation. -/
def mapError (restate : ε → ε') (traced : Traced ε α) : Traced ε' α :=
  ⟨traced.outcome.mapError restate, traced.events⟩

instance : Monad (Traced ε) where
  pure := ok
  bind := andThen

@[ext] theorem ext {left right : Traced ε α} (outcomes : left.outcome = right.outcome)
    (events : left.events = right.events) : left = right := by
  cases left
  cases right
  cases outcomes
  cases events
  rfl

instance : LawfulMonad (Traced ε) :=
  LawfulMonad.mk' _
    (fun traced => by
      rcases traced with ⟨_ | value, events⟩ <;>
        simp [Functor.map, andThen, ok])
    (fun value next => by
      simp [bind, pure, andThen, ok])
    (fun traced next further => by
      rcases traced with ⟨_ | value, events⟩
      · simp [bind, andThen]
      · rcases nextEq : next value with ⟨_ | nextValue, nextEvents⟩ <;>
          simp [bind, andThen, nextEq])

@[simp] theorem pure_eq (value : α) : (pure value : Traced ε α) = ⟨.ok value, []⟩ := rfl

@[simp] theorem bind_error (error : ε) (events : List Event) (next : α → Traced ε β) :
    ((⟨.error error, events⟩ : Traced ε α) >>= next) = ⟨.error error, events⟩ := rfl

@[simp] theorem bind_ok (value : α) (events : List Event) (next : α → Traced ε β) :
    ((⟨.ok value, events⟩ : Traced ε α) >>= next) =
      ⟨(next value).outcome, events ++ (next value).events⟩ := rfl

/-! ## Outcomes without their events -/

@[simp] theorem outcome_bind (first : Traced ε α) (next : α → Traced ε β) :
    (first >>= next).outcome = first.outcome >>= fun value => (next value).outcome := by
  rcases first with ⟨_ | value, events⟩ <;> rfl

/-- A computation that succeeds has a first part that does. -/
theorem exists_of_outcome_bind {first : Traced ε α} {next : α → Traced ε β} {value : β}
    (result : (first >>= next).outcome = .ok value) :
    ∃ middle, first.outcome = .ok middle ∧ (next middle).outcome = .ok value := by
  rw [outcome_bind] at result
  exact exists_of_bind_eq_ok result

/-- Behind a first part that succeeds a computation goes on with its value. -/
theorem outcome_bind_of_eq_ok {first : Traced ε α} {middle : α}
    (found : first.outcome = .ok middle) (next : α → Traced ε β) :
    (first >>= next).outcome = (next middle).outcome := by
  rw [outcome_bind, found]
  rfl

@[simp] theorem outcome_ofExcept (outcome : Except ε α) :
    (ofExcept outcome).outcome = outcome := rfl

@[simp] theorem outcome_report (event : Event) :
    (report event : Traced ε Unit).outcome = .ok () := rfl

@[simp] theorem outcome_mapError (restate : ε → ε') (traced : Traced ε α) :
    (traced.mapError restate).outcome = traced.outcome.mapError restate := rfl

end Traced

end Fieldmap
