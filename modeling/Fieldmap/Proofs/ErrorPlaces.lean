import Fieldmap.Proofs.CompileSound
import Fieldmap.Proofs.Refusals

/-!
# Where errors and records stand

Every fault names one text. The reader finds a fault at the token it takes, or at the
name of the record that the token closes, so an error names one of the tokens and
shows where that token stands. Records and fields show where the tokens stand that
they are derived from, in reading order.
-/

namespace Fieldmap.Spec

open Text (quote)

/-! ## What an error names -/

/-- The text that a fault names. -/
def Fault.named : Fault → String
  | unlexable stretch => stretch
  | unexpected found => found
  | expected _ found => found
  | duplicateItem keyword => keyword
  | invalidLiteral literal _ => literal
  | unknownType name => name
  | missingStruct record => record
  | missingFieldmap record => record

/-- How a message shows the text that its fault names. A literal is quoted already. -/
def Fault.shown : Fault → String
  | invalidLiteral literal _ => literal
  | fault => quote fault.named

theorem Fault.exists_message_eq (fault : Fault) :
    ∃ opening closing, fault.message = opening ++ fault.shown ++ closing := by
  have ending (opening shown : String) : opening ++ shown = opening ++ shown ++ "" := by simp
  cases fault with
  | unlexable | unexpected | unknownType => exact ⟨_, "", ending _ _⟩
  | expected what found => exact ⟨"Expected " ++ what.describe ++ " but found ", "", ending _ _⟩
  | duplicateItem | missingStruct | missingFieldmap => exact ⟨_, _, rfl⟩
  | invalidLiteral literal error =>
      exact ⟨_, ": " ++ error.message, String.append_assoc⟩

/-- The text that an error names, at the position that it shows. -/
def Error.token (error : Error) : Token :=
  ⟨error.fault.named, error.position⟩

theorem Phase.named_refusal (phase : Phase) (found : String) :
    (phase.refusal found).named = found := by
  cases phase <;> rfl

/-- A refused token is the one that the error names. -/
theorem Phase.Refuses.named {phase : Phase} {token : Token} {fault : Fault}
    (refuses : phase.Refuses token fault) : fault.named = token.text := by
  cases refuses with
  | unusable => exact phase.named_refusal token.text
  | duplicate | literal | unknownType => rfl

theorem Phase.Refuses.token_eq {phase : Phase} {token : Token} {error : Error}
    (refuses : phase.Refuses token error.fault) (position : error.position = token.position) :
    error.token = token := by
  rw [Error.token, refuses.named, position]

/-- A draft that becomes no record is named by the error. -/
theorem Draft.Lacks.named {draft : Draft} {fault : Fault} (lacks : draft.Lacks fault) :
    fault.named = draft.name.text := by
  cases lacks <;> rfl

theorem Draft.Lacks.token_eq {draft : Draft} {error : Error} (lacks : draft.Lacks error.fault)
    (position : error.position = draft.name.position) : error.token = draft.name := by
  rw [Error.token, lacks.named, position]

/-! ## Lists of tokens -/

/-- The name of a draft is among the tokens that account for it. -/
theorem Draft.Accounts.name_mem {draft : Draft} {tokens : List Token}
    (accounts : draft.Accounts tokens) : draft.name ∈ tokens := by
  cases accounts with
  | intro _ _ _ _ _ _ nameEq _ =>
      rw [nameEq]
      simp

/-- An error of the reader is over one of the tokens. -/
theorem token_mem_of_recordsOf {tokens : List Token} {error : Error}
    (refused : recordsOf tokens = .error error) : error.token ∈ tokens := by
  rcases recordsOf_eq_error refused with failed | ⟨last, _, isLast, _, _, position, refuses⟩
  · rcases State.run_eq_error failed with ⟨before, token, after, reached, rfl, taken, step⟩
    rcases State.step_eq_error step with ⟨draft, inBody, _, position, lacks⟩ | ⟨position, refuses⟩
    · rw [lacks.token_eq position]
      have accounts := State.accounts_initial.run taken
      rcases reached with ⟨records, phase⟩
      change phase = .body draft at inBody
      subst inBody
      cases accounts with
      | intro _ phaseAccounts =>
          cases phaseAccounts with
          | body draftAccounts => simp [draftAccounts.name_mem]
    · rw [refuses.token_eq position]
      simp
  · rw [refuses.token_eq position]
    exact List.mem_of_getLast? isLast

end Spec

/-- The token whose position a field carries. -/
def Field.anchor (field : Field) : Token :=
  ⟨field.name, field.position⟩

/-- The tokens whose positions a record and its fields carry. -/
def Record.anchors (record : Record) : List Token :=
  ⟨"record", record.position⟩ :: record.fields.map Field.anchor

namespace Spec

/-! ## Records and fields -/

theorem DerivesEntry.anchor_sublist {tokens : List Token} {field : Field}
    (derived : DerivesEntry tokens field) : [field.anchor].Sublist tokens := by
  rcases derived with ⟨closed, _⟩
  cases closed with
  | intro _ _ _ _ _ _ _ => simp [Field.anchor]

theorem DerivesRecord.anchors_sublist {tokens : List Token} {record : Record}
    (derived : DerivesRecord tokens record) : record.anchors.Sublist tokens := by
  cases derived with
  | @intro keyword name opening closing body items _ word _ _ sequence _ _ gathers _ positionEq =>
      have keywordEq : keyword = ⟨"record", record.position⟩ := by
        rw [positionEq, ← Token.isWord_iff.mp word]
      obtain ⟨item, itemDerived, inBody⟩ := sequence.exists_sublist_of_mem gathers.fieldmap
      have inItem : (record.fields.map Field.anchor).Sublist item := by
        cases itemDerived with
        | @fieldmap itemKeyword itemOpening itemClosing inner _ _ _ entries _ =>
            have inEntries := entries.flatMap_sublist DerivesEntry.anchor_sublist
            rw [← List.map_eq_flatMap] at inEntries
            exact (inEntries.trans (List.sublist_append_right _ inner)).trans
              (List.sublist_append_left _ [itemClosing])
      have inside := (inItem.trans inBody).trans (List.sublist_append_right [name, opening] body)
      rw [Record.anchors, ← keywordEq]
      exact (inside.cons_cons keyword).trans (List.sublist_append_left _ [closing])

theorem DerivesFile.anchors_sublist {tokens : List Token} {records : List Record}
    (derived : DerivesFile tokens records) : (records.flatMap Record.anchors).Sublist tokens := by
  cases derived with
  | intro sequence _ =>
      exact (sequence.flatMap_sublist DerivesRecord.anchors_sublist).trans
        (List.sublist_append_left _ _)

/-! ## Specifications -/

/-- What a specification is refused for stands where the error shows. -/
theorem exists_standsAt_of_read {text : String} {error : Error}
    (refused : read text = .error error) : ∃ offset, error.token.StandsAt text offset := by
  unfold read at refused
  rcases eq_error_of_bind_eq_error refused with stuck | ⟨tokens, cut, refused⟩
  · obtain ⟨stretch, faultEq, stands⟩ := Token.exists_standsAt_of_error stuck
    rw [Error.token, faultEq]
    exact stands
  · exact Token.exists_standsAt cut (token_mem_of_recordsOf refused)

/-- Every position that compilation reports is true. An error shows where the text
stands that its message names. Records and fields show where the keywords and names
stand that they are derived from, in reading order. -/
theorem compile_places (text : String) :
    (∀ error, (compile text).outcome = .error (.spec error) →
      (∃ opening closing, error.message =
        locate error.position (opening ++ error.fault.shown ++ closing)) ∧
      ∃ offset ≤ text.utf8ByteSize, error.token.StandsAt text offset) ∧
    ∀ records, (compile text).outcome = .ok records →
      (∃ tokens, Token.ofText text = .ok tokens ∧ DerivesFile tokens records ∧
        (records.flatMap Record.anchors).Sublist tokens) ∧
      (∀ anchor ∈ records.flatMap Record.anchors,
        ∃ offset ≤ text.utf8ByteSize, anchor.StandsAt text offset) ∧
      (records.flatMap Record.anchors).Pairwise fun earlier later =>
        earlier.position.Precedes later.position := by
  constructor
  · intro error refused
    obtain ⟨opening, closing, messageEq⟩ := error.fault.exists_message_eq
    obtain ⟨offset, stands⟩ := exists_standsAt_of_read (read_eq_error_of_compile refused)
    refine ⟨⟨opening, closing, ?_⟩, offset, stands.offset_le, stands⟩
    rw [Error.message, messageEq]
  · intro records compiled
    obtain ⟨tokens, cut, derived⟩ := exists_derivesFile_of_read (compile_eq_ok_iff.mp compiled).1
    have anchored := derived.anchors_sublist
    refine ⟨⟨tokens, cut, derived, anchored⟩, ?_, (Token.pairwise_ofText cut).sublist anchored⟩
    intro anchor member
    obtain ⟨offset, stands⟩ := Token.exists_standsAt cut (anchored.subset member)
    exact ⟨offset, stands.offset_le, stands⟩

-- Columns count bytes, so the letter in the literal takes two of them.
example : (compile "\n\trecord \"é\" ü").outcome = .error (.spec ⟨⟨2, 14⟩, .unlexable "ü"⟩) := by
  decide +kernel

end Spec

end Fieldmap
