import Fieldmap.Proofs.FileWrites
import Fieldmap.Proofs.GivenOptions
import Fieldmap.Proofs.ProgramOutcome

/-!
# The effect of a run

Where every write fails without effect or is complete, a run either fails and leaves all
files as they were, or it delivers one generated text: on the standard output, or in one
file, which then holds that text and nothing else.
-/

namespace Fieldmap.CommandLine

section

variable {σ : Type}

/-! ## What is delivered -/

/-- The outcome of a run that delivers one text and does nothing else. A text that is
written to a file is all that the file holds, and no other file changes. -/
inductive Delivered (view : FileView σ) (before : σ) (text : String) :
    Option String → Outcome σ → Prop where
  | printed : Delivered view before text none ⟨0, text, none, before⟩
  | written {path : String} {after : σ} : view.Receives before path text after →
      Delivered view before text (some path) ⟨0, "", none, after⟩

theorem Delivered.status_eq {view : FileView σ} {before : σ} {text : String}
    {output : Option String} {outcome : Outcome σ}
    (delivered : Delivered view before text output outcome) : outcome.status = 0 := by
  cases delivered <;> rfl

variable [Files σ]

/-! ## What is generated -/

/-- The text that options ask for among some files: a fieldmap for a dump format, or a dump
or the tables of a specification. -/
inductive Generates (options : Options) (files : σ) : String → Prop where
  | fieldmap {input : String} {fields : List Field} :
      options.specify → options.input files = .ok input →
      (DumpFormat.fields (Overrides.default.insertAll options.overrides) input).outcome =
        .ok fields →
      Generates options files (Spec.fieldmapBlock fields)
  | dump {input : String} {records : List Record} :
      ¬ options.specify → options.dumpModel → options.input files = .ok input →
      (Spec.compile input).outcome = .ok records →
      Generates options files (dumpRecords records ++ "\n")
  | tables {input text : String} {records : List Record} :
      ¬ options.specify → ¬ options.dumpModel → options.input files = .ok input →
      (Spec.compile input).outcome = .ok records → (tables records).outcome = .ok text →
      Generates options files text

theorem Options.product_eq_ok_iff {options : Options} {files : σ} {text : String} :
    options.product files = .ok text ↔ Generates options files text := by
  constructor
  · intro generated
    rcases exists_of_bind_eq_ok generated with ⟨input, read, generated⟩
    have read := mapError_eq_ok_iff.mp read
    unfold generate at generated
    split at generated
    · rename_i specify
      rcases Traced.exists_of_outcome_bind generated with ⟨fields, found, generated⟩
      cases generated
      exact .fieldmap specify read (mapError_eq_ok_iff.mp found)
    · rename_i spec
      rcases Traced.exists_of_outcome_bind generated with ⟨records, compiled, generated⟩
      split at generated
      · rename_i dump
        cases generated
        exact .dump spec dump read compiled
      · rename_i tabled
        exact .tables spec tabled read compiled (mapError_eq_ok_iff.mp generated)
  · intro generates
    cases generates with
    | fieldmap specify read found =>
        rw [product_of_input read, generate, if_pos specify,
          Traced.outcome_bind_of_eq_ok (mapError_eq_ok_iff.mpr found)]
        rfl
    | dump spec dump read compiled =>
        rw [product_of_input read, generate, if_neg spec, Traced.outcome_bind_of_eq_ok compiled,
          if_pos dump]
        rfl
    | tables spec tabled read compiled generated =>
        rw [product_of_input read, generate, if_neg spec, Traced.outcome_bind_of_eq_ok compiled,
          if_neg tabled]
        exact mapError_eq_ok_iff.mpr generated

/-! ## Runs with checked options -/

/-- A text is delivered, or the file for it cannot be written and nothing happens. -/
theorem delivered_or_failed {view : FileView σ} {files : σ} {output : Option String}
    (atomic : ∀ path ∈ output, view.AtomicAt files path) (text : String) :
    Delivered view files text output (outcome (deliver text output) (.start files)) ∨
      ∃ fault, outcome (deliver text output) (.start files) = failed files (.file fault) := by
  unfold World.start
  cases output with
  | none =>
      rw [outcome_deliver_none rfl]
      exact .inl .printed
  | some path =>
      have atomic := atomic path rfl
      rcases writes : Files.writeText files path text with ⟨fault | _, after⟩
      · obtain rfl := atomic.withoutEffect text fault after writes
        exact .inr ⟨fault, outcome_deliver_of_error rfl writes⟩
      · rw [outcome_deliver_of_ok rfl writes]
        exact .inl (.written (atomic.complete text after writes))

/-- A text is delivered to every file that can be written. -/
theorem status_deliver_eq {files : σ} {text : String} {output : Option String}
    (writable : ∀ path ∈ output, (Files.writeText files path text).1 = .ok ()) :
    (outcome (deliver text output) (.start files)).status = 0 := by
  unfold World.start
  cases output with
  | none => rw [outcome_deliver_none rfl]
  | some path =>
      have written := writable path rfl
      rw [outcome_deliver_of_ok rfl (Prod.ext written rfl)]

/-- A run delivers what it generates, or fails with one error. -/
theorem delivered_or_failed_of_perform {view : FileView σ} {files : σ} {options : Options}
    (atomic : ∀ path ∈ options.output, view.AtomicAt files path) :
    (∃ text, Generates options files text ∧
      Delivered view files text options.output (outcome (perform options) (.start files))) ∨
    ∃ error, outcome (perform options) (.start files) = failed files error := by
  rw [outcome_perform]
  cases generated : options.product files with
  | error error => exact .inr ⟨error, outcome_fail rfl files error⟩
  | ok text =>
      rcases delivered_or_failed atomic text with delivered | ⟨fault, failed⟩
      · exact .inl ⟨text, Options.product_eq_ok_iff.mp generated, delivered⟩
      · exact .inr ⟨.file fault, failed⟩

end

/-! ## Help -/

/-- An argument that asks for help, by the long name or by the letter behind those of other
flags. -/
def AsksForHelp (argument : String) : Prop :=
  argument = "--help" ∨ ∃ flags rest, argument.toList = '-' :: (flags ++ 'h' :: rest) ∧
    ∀ letter ∈ flags, ∃ flag, OptionName.ofShort? letter = some (.flag flag)

theorem OptionName.eq_h_of_ofShort? {letter : Char}
    (short : ofShort? letter = some (.flag .help)) : letter = 'h' := by
  unfold ofShort? at short
  split at short <;> first | rfl | cases short

theorem OptionName.eq_help_of_ofLong? {name : String}
    (named : ofLong? name = some (.flag .help)) : name = "help" := by
  unfold ofLong? at named
  split at named <;> first | rfl | cases named

namespace Options

theorem failsWith_raise (options : Options) (flag : Flag) :
    FailsWith (fun refusal => refusal = .help → flag = .help) (options.raise flag) := by
  cases flag with
  | help => exact .error fun _ => rfl
  | specify | dumpModel | verbose => exact .ite (fun _ => .error nofun) fun _ => .ok _

theorem failsWith_set (options : Options) (setting : Setting) (value : List Char) :
    FailsWith (fun refusal => refusal ≠ .help) (options.set setting value) := by
  have onPath (given : Option String) :
      FailsWith (fun refusal => refusal ≠ .help) (path setting given value) :=
    .ite (fun _ => .error nofun) fun _ => .ite (fun _ => .error nofun) fun _ => .ok _
  cases setting with
  | spec | format | output => exact .bind (onPath _) fun _ => .ok _
  | override =>
      simp only [set]
      split
      · exact .error nofun
      · exact .ok _

theorem letters_eq_help {argument : String} {options : Options} {letters : List Char}
    (refused : options.letters argument letters = .error .help) :
    ∃ flags rest, letters = flags ++ 'h' :: rest ∧
      ∀ letter ∈ flags, ∃ flag, OptionName.ofShort? letter = some (.flag flag) := by
  induction letters generalizing options with
  | nil => cases refused
  | cons letter rest ih =>
      unfold Options.letters at refused
      split at refused
      · cases refused
      · rename_i flag short
        rcases eq_error_of_bind_eq_error refused with refused | ⟨raised, _, refused⟩
        · have asked := options.failsWith_raise flag _ refused rfl
          subst asked
          exact ⟨[], rest, by rw [OptionName.eq_h_of_ofShort? short]; rfl, nofun⟩
        · rcases ih refused with ⟨flags, behind, rfl, each⟩
          exact ⟨letter :: flags, behind, rfl, List.forall_mem_cons.mpr ⟨⟨flag, short⟩, each⟩⟩
      · rename_i setting short
        split at refused
        · cases refused
        all_goals
          rcases eq_error_of_bind_eq_error refused with refused | ⟨_, _, goesOn⟩
          · exact absurd rfl (options.failsWith_set _ _ _ refused)
          · cases goesOn

theorem long_eq_help {argument : String} {options : Options} {text : List Char}
    (refused : options.long argument text = .error .help) : text = "help".toList := by
  simp only [long] at refused
  split at refused
  · cases refused
  · rename_i flag named ended
    rcases eq_error_of_bind_eq_error refused with refused | ⟨_, _, goesOn⟩
    · have asked := options.failsWith_raise flag _ refused rfl
      subst asked
      rw [cut_at_equals text, ended, OptionName.eq_help_of_ofLong? named]
      rfl
    · cases goesOn
  · cases refused
  · cases refused
  · rcases eq_error_of_bind_eq_error refused with refused | ⟨_, _, goesOn⟩
    · exact absurd rfl (options.failsWith_set _ _ _ refused)
    · cases goesOn

theorem argument_eq_help {argument : String} {options : Options}
    (refused : options.argument argument = .error .help) : AsksForHelp argument := by
  unfold Options.argument at refused
  split at refused
  · rename_i text textEq
    left
    rw [long_eq_help refused] at textEq
    exact String.toList_injective textEq
  · rename_i first rest _ textEq
    right
    rcases letters_eq_help refused with ⟨flags, behind, whole, each⟩
    exact ⟨flags, behind, by rw [textEq, whole], each⟩
  · cases refused

theorem exists_asksForHelp_of_readAll {arguments : List String} {options : Options}
    (refused : options.readAll arguments = .error .help) :
    ∃ argument ∈ arguments, AsksForHelp argument := by
  fun_induction Options.readAll options arguments with
  | case4 options argument rest _ refusal found =>
      cases refused
      exact ⟨argument, List.mem_cons_self, argument_eq_help found⟩
  | case5 options argument rest _ next taken ih =>
      rcases ih refused with ⟨asking, member, asks⟩
      exact ⟨asking, List.mem_cons_of_mem _ member, asks⟩
  | case7 options argument _ next setting taken value rest isValue refusal found =>
      cases refused
      exact absurd rfl (next.failsWith_set _ _ _ found)
  | case8 options argument _ next setting taken value rest isValue further _ ih =>
      rcases ih refused with ⟨asking, member, asks⟩
      exact ⟨asking, List.mem_cons_of_mem _ (List.mem_cons_of_mem _ member), asks⟩
  | _ => cases refused

/-- Help is shown only where an argument asks for it. -/
theorem exists_asksForHelp {arguments : List String}
    (refused : Options.ofArguments arguments = .error .help) :
    ∃ argument ∈ arguments, AsksForHelp argument := by
  rcases eq_error_of_bind_eq_error refused with refused | ⟨options, _, refused⟩
  · exact exists_asksForHelp_of_readAll refused
  · unfold check at refused
    split at refused
    · cases refused
    · split at refused <;> cases refused

end Options

/-! ## All runs -/

theorem execute_eq_perform {m : Type → Type} [Monad m] [Host m] {arguments : List String}
    {options : Options} (accepted : Options.ofArguments arguments = .ok options) :
    (execute arguments : m Nat) = perform options := by
  rw [execute, accepted]

section

variable {σ : Type} [Files σ] {arguments : List String}

theorem run_eq_perform {options : Options} (accepted : Options.ofArguments arguments = .ok options)
    (files : σ) : run arguments files = outcome (perform options) (.start files) := by
  rw [run, execute_eq_perform accepted]

/-- Arguments that make no sense have no effect, and no error is reported for them. -/
theorem run_of_refusal {refusal : Refusal}
    (refused : Options.ofArguments arguments = .error refusal) (noHelp : refusal ≠ .help)
    (files : σ) : run arguments files = ⟨2, "", none, files⟩ := by
  have silent : ["error: " ++ refusal.message].find? isDiagnostic = none := by
    simp [isDiagnostic, diagnosticOpening, String.toList_append]
  rw [run, execute, refused]
  cases refusal with
  | help => exact absurd rfl noHelp
  | _ =>
      change Outcome.mk 2 "" (List.find? isDiagnostic ["error: " ++ _]) files = _
      rw [silent]

/-- What a run can do: nothing at all, or all that it is for. -/
structure AllOrNothing (view : FileView σ) (arguments : List String) (files : σ) : Prop where
  /-- A run that fails prints nothing and leaves every file as it was. -/
  nothing : (run arguments files).status ≠ 0 →
    (run arguments files).stdout = "" ∧ (run arguments files).directory = files
  /-- A run that succeeds delivers the text that its options ask for. -/
  all : (run arguments files).status = 0 → ∃ options text,
    Options.ofArguments arguments = .ok options ∧ Generates options files text ∧
    Delivered view files text options.output (run arguments files)
  /-- A run succeeds where there is a text and the file for it can be written. -/
  succeeds : ∀ options text, Options.ofArguments arguments = .ok options →
    Generates options files text →
    (∀ path ∈ options.output, (Files.writeText files path text).1 = .ok ()) →
    (run arguments files).status = 0

/-- Among any files, a run whose output is written as a whole or not at all has no effect where
it fails, and no other than the delivery of its text where it succeeds, unless it shows the
help that one of its arguments asks for. -/
theorem run_allOrNothing {view : FileView σ} {files : σ}
    (noHelp : Options.ofArguments arguments ≠ .error .help)
    (atomic : ∀ options, Options.ofArguments arguments = .ok options →
      ∀ path ∈ options.output, view.AtomicAt files path) :
    AllOrNothing view arguments files := by
  cases read : Options.ofArguments arguments with
  | error refusal =>
      have runEq : run arguments files = ⟨2, "", none, files⟩ := by
        apply run_of_refusal read
        rintro rfl
        exact noHelp read
      constructor
      · intro _
        rw [runEq]
        exact ⟨rfl, rfl⟩
      · rw [runEq]
        nofun
      · intro options text accepted
        rw [read] at accepted
        cases accepted
  | ok options =>
      have runEq := run_eq_perform read files
      have delivers := delivered_or_failed_of_perform (atomic options read)
      constructor
      · intro failing
        rw [runEq] at failing ⊢
        rcases delivers with ⟨text, _, delivered⟩ | ⟨error, failure⟩
        · exact absurd delivered.status_eq failing
        · rw [failure]
          exact ⟨rfl, rfl⟩
      · intro succeeding
        rw [runEq] at succeeding ⊢
        rcases delivers with ⟨text, generates, delivered⟩ | ⟨error, failure⟩
        · exact ⟨options, text, read, generates, delivered⟩
        · rw [failure] at succeeding
          cases succeeding
      · intro accepted text acceptedEq generates writable
        rw [read] at acceptedEq
        cases acceptedEq
        rw [runEq, outcome_perform, Options.product_eq_ok_iff.mpr generates]
        exact status_deliver_eq writable

end

/-- A directory with one dump format. -/
def formatDirectory : Directory :=
  ⟨[("format", "\"a\":%u\x7d".toUTF8)]⟩

/-- Arguments that have a dump format written over with its fieldmap. -/
def inPlaceArguments : List String := ["-g", "-f", "format", "-o", "format"]

theorem run_allOrNothing_inPlaceArguments :
    Options.ofArguments inPlaceArguments ≠ .error .help ∧
    (∀ path, Directory.view.AtomicAt formatDirectory path) ∧
    (run inPlaceArguments formatDirectory).status = 0 ∧
    AllOrNothing Directory.view inPlaceArguments formatDirectory := by
  have accepted : Options.ofArguments inPlaceArguments =
      .ok ⟨true, false, false, none, some "format", some "format", []⟩ := rfl
  have noHelp : Options.ofArguments inPlaceArguments ≠ .error .help := by
    rw [accepted]
    nofun
  have atomic := Directory.atomicAt_view formatDirectory
  exact ⟨noHelp, atomic, by decide +kernel, run_allOrNothing noHelp fun _ _ path _ => atomic path⟩

end Fieldmap.CommandLine
