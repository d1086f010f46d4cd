import Fieldmap.Proofs.Grammar.Soundness

/-!
# Fields are kept

The fields of a record are read in order, and a field that was read is never changed or
taken back. The fields read so far are therefore the first fields of the record, however
the specification goes on.
-/

namespace Fieldmap.Spec

/-- The field of an entry, once all of it but the closing parenthesis was read. -/
def EntryPhase.fields : EntryPhase → List Field
  | .close field => [field]
  | _ => []

/-- A draft whose fieldmap begins with some fields. -/
def Draft.Keeps (draft : Draft) (known : List Field) : Prop :=
  ∃ fields, draft.fields = some fields ∧ known <+: fields

/-- A phase in which the fieldmap of a record was read, at least as far as some fields. -/
def Phase.Keeps (known : List Field) : Phase → Prop
  | .records | .recordName _ | .bodyOpen _ | .fieldmapOpen _ | .finished => False
  | .body draft | .header draft | .struct draft | .itemEnd draft | .bufferedOpen draft
  | .buffered draft _ | .bufferedNext draft _ => draft.Keeps known
  | .fieldmap _ fields | .fieldmapNext _ fields => known <+: fields
  | .entry _ fields phase => known <+: fields ++ phase.fields

variable {known : List Field}

/-- An entry only adds its own field. -/
theorem EntryPhase.keeps_step {draft : Draft} {fields : List Field} {phase : EntryPhase}
    {token : Token} {next : Phase} (keeps : known <+: fields ++ phase.fields)
    (step : phase.step draft fields token = .ok next) : next.Keeps known := by
  cases phase with
  | default name type =>
      obtain ⟨default, _, rfl⟩ := derivesDefault_of_step step
      have begins : known <+: fields := by simpa [EntryPhase.fields] using keeps
      exact begins.trans (List.prefix_append fields _)
  | type name =>
      simp only [EntryPhase.step] at step
      split at step
      · split at step
        · cases step
          exact keeps
        · cases step
      · exact absurd step refuse_ne_ok
  | _ =>
      simp only [EntryPhase.step, take_or_refuse_eq_ok_iff] at step
      rcases step with ⟨_, rfl⟩
      exact keeps

theorem keeps_entryOrEnd {draft : Draft} {fields : List Field} {token : Token}
    {phase next : Phase} (keeps : known <+: fields)
    (step : entryOrEnd draft fields phase token = .ok next) : next.Keeps known := by
  simp only [entryOrEnd] at step
  split at step
  · cases step
    exact ⟨fields, rfl, keeps⟩
  · rw [take_or_refuse_eq_ok_iff] at step
    rcases step with ⟨_, rfl⟩
    exact keeps.trans (List.prefix_append fields _)

/-- No second fieldmap is opened. -/
theorem Draft.keeps_open {draft : Draft} {token : Token} {item : Item} {next : Phase}
    (keeps : draft.Keeps known) (step : draft.open token item = .ok next) : next.Keeps known := by
  simp only [Draft.open] at step
  split at step
  · cases step
  · rename_i free
    cases step
    cases item with
    | fieldmap =>
        rcases keeps with ⟨fields, present, _⟩
        simp [Draft.has, present] at free
    | _ => exact keeps

theorem Phase.keeps_step {phase next : Phase} {token : Token} (keeps : phase.Keeps known)
    (step : phase.step token = .ok next) : next.Keeps known := by
  cases phase with
  | records | recordName | bodyOpen | fieldmapOpen | finished => cases keeps
  | body draft =>
      simp only [Phase.step] at step
      split at step
      · exact Draft.keeps_open keeps step
      · exact absurd step refuse_ne_ok
  | header draft =>
      simp only [Phase.step] at step
      split at step
      · obtain ⟨_, _, step⟩ := exists_of_bind_eq_ok step
        cases step
        exact keeps
      · exact absurd step refuse_ne_ok
  | struct draft =>
      simp only [Phase.step] at step
      split at step
      · obtain ⟨_, _, step⟩ := exists_of_bind_eq_ok step
        cases step
        exact keeps
      · rw [take_or_refuse_eq_ok_iff] at step
        rcases step with ⟨_, rfl⟩
        exact keeps
  | itemEnd draft | bufferedOpen draft =>
      simp only [Phase.step, take_or_refuse_eq_ok_iff] at step
      rcases step with ⟨_, rfl⟩
      exact keeps
  | buffered draft names | bufferedNext draft names =>
      simp only [Phase.step] at step
      split at step
      · cases step
        exact keeps
      · rw [take_or_refuse_eq_ok_iff] at step
        rcases step with ⟨_, rfl⟩
        exact keeps
  | fieldmap draft fields => exact keeps_entryOrEnd keeps step
  | entry draft fields part => exact EntryPhase.keeps_step keeps step
  | fieldmapNext draft fields =>
      simp only [Phase.step] at step
      split at step
      · cases step
        exact keeps
      · exact keeps_entryOrEnd keeps step

/-- The record that a draft becomes has its fields. -/
theorem Draft.prefix_of_finish {draft : Draft} {record : Record} (keeps : draft.Keeps known)
    (finished : draft.finish = .ok record) : known <+: record.fields := by
  rcases keeps with ⟨fields, present, begins⟩
  simp only [Draft.finish, present] at finished
  split at finished
  · cases finished
  · rename_i same
    cases same
  · rename_i same
    cases same
    cases finished
    exact begins

/-- Complete records are kept. -/
theorem State.prefix_of_run {state next : State} {tokens : List Token}
    (run : state.run tokens = .ok next) : state.records <+: next.records := by
  induction tokens generalizing state with
  | nil =>
      cases run
      exact List.prefix_refl _
  | cons token rest ih =>
      rw [State.run_cons] at run
      obtain ⟨middle, stepped, run⟩ := exists_of_bind_eq_ok run
      rcases State.step_eq_ok stepped with ⟨_, record, _, _, _, rfl⟩ | ⟨_, _, rfl⟩
      · exact (List.prefix_append state.records [record]).trans (ih run)
      · have further := ih run
        exact further

/-- The record that is being read is completed with the fields that are known. -/
theorem Phase.Keeps.exists_record {phase : Phase} {records all : List Record}
    {tokens : List Token} (keeps : phase.Keeps known)
    (run : State.run ⟨records, phase⟩ tokens = .ok ⟨all, .finished⟩) :
    ∃ record, records ++ [record] <+: all ∧ known <+: record.fields := by
  induction tokens generalizing phase with
  | nil =>
      cases run
      cases keeps
  | cons token rest ih =>
      rw [State.run_cons] at run
      obtain ⟨middle, stepped, run⟩ := exists_of_bind_eq_ok run
      rcases State.step_eq_ok stepped with ⟨draft, record, inBody, _, finished, rfl⟩ |
        ⟨next, step, rfl⟩
      · change phase = .body draft at inBody
        subst inBody
        exact ⟨record, State.prefix_of_run run, Draft.prefix_of_finish keeps finished⟩
      · exact ih (Phase.keeps_step keeps step) run

end Fieldmap.Spec
