import Fieldmap.CommandLine.Run

/-!
# What the program comes to

Before it fails or delivers a text, the program only reads its input and reports events. No
event is reported like an error, so what a run leaves behind is decided by its last step.
-/

namespace Fieldmap.CommandLine

/-! ## Lines -/

theorem isDiagnostic_diagnostic (error : Error) : isDiagnostic (diagnostic error) = true := by
  simp [isDiagnostic, diagnostic, String.toList_append]

/-- Values are put behind what a line holds. -/
theorem exists_foldl_values_eq (values : List (String × String)) (line : String) :
    ∃ rest, values.foldl (fun line value => line ++ " " ++ value.1 ++ "=" ++ value.2) line =
      line ++ rest := by
  induction values generalizing line with
  | nil => exact ⟨"", by simp⟩
  | cons value values ih =>
      rcases ih (line ++ " " ++ value.1 ++ "=" ++ value.2) with ⟨rest, restEq⟩
      refine ⟨" " ++ value.1 ++ "=" ++ value.2 ++ rest, ?_⟩
      rw [List.foldl_cons, restEq]
      simp only [String.append_assoc]

/-- The line of an event begins with its level. -/
theorem exists_eventLine_eq (event : Event) :
    ∃ rest, eventLine event = event.level.name ++ rest := by
  rcases exists_foldl_values_eq event.values (event.level.name ++ " " ++ event.message)
    with ⟨rest, lineEq⟩
  refine ⟨" " ++ event.message ++ rest, ?_⟩
  rw [eventLine, lineEq]
  simp only [String.append_assoc]

theorem isDiagnostic_eventLine (event : Event) : isDiagnostic (eventLine event) = false := by
  rcases exists_eventLine_eq event with ⟨rest, lineEq⟩
  rw [isDiagnostic, lineEq, String.toList_append]
  cases event.level <;> rfl

section

variable {σ : Type}

/-! ## Steps -/

/-- A step that gives a value goes on with it in the world that it leaves. -/
theorem outcome_bind {α : Type} {step : StateM (World σ) α}
    {next : α → StateM (World σ) Nat} {world after : World σ} {value : α}
    (stepped : step.run world = (value, after)) :
    outcome (step >>= next) world = outcome (next value) after := by
  rw [outcome, StateT.run_bind, stepped]
  rfl

variable [Files σ]

/-- The input that options ask for. -/
def Options.input (options : Options) (files : σ) : Except FileFault String :=
  match options.inputPath? with
  | none => .ok options.builtinInput
  | some path => Files.readText files path

/-- To read the input changes nothing. -/
theorem run_readInput (options : Options) (world : World σ) :
    (readInput options : StateM (World σ) _).run world = (options.input world.files, world) := by
  unfold readInput Options.input
  cases options.inputPath? <;> rfl

/-- Reported lines follow one another on the standard error stream. -/
theorem run_forM_report (lines : List String) (world : World σ) :
    (lines.forM Host.report : StateM (World σ) Unit).run world =
      ((), { world with stderr := world.stderr ++ lines }) := by
  induction lines generalizing world with
  | nil =>
      rw [List.append_nil]
      rfl
  | cons line rest ih =>
      change (rest.forM Host.report : StateM (World σ) Unit).run
        { world with stderr := world.stderr ++ [line] } = _
      rw [ih, List.append_assoc]
      rfl

/-! ## Ends -/

/-- The outcome of a run that fails. -/
def failed (files : σ) (error : Error) : Outcome σ :=
  ⟨1, "", some (diagnostic error), files⟩

variable {lines : List String}

/-- An error is the diagnostic where no line has been one before. -/
theorem outcome_fail (silent : lines.find? isDiagnostic = none) (files : σ) (error : Error) :
    outcome (fail error) ⟨files, "", lines⟩ = failed files error := by
  change Outcome.mk 1 "" ((lines ++ [diagnostic error]).find? isDiagnostic) files = _
  rw [List.find?_append, silent, List.find?_cons_of_pos (isDiagnostic_diagnostic error)]
  rfl

theorem outcome_deliver_none (silent : lines.find? isDiagnostic = none) (files : σ)
    (text : String) : outcome (deliver text none) ⟨files, "", lines⟩ = ⟨0, text, none, files⟩ := by
  change Outcome.mk 0 ("" ++ text) (lines.find? isDiagnostic) files = _
  rw [silent, String.empty_append]

theorem run_writeText {files after : σ} {path text : String} {written : Except FileFault Unit}
    (writes : Files.writeText files path text = (written, after)) (stdout : String)
    (lines : List String) :
    (Host.writeText path text : StateM (World σ) _).run ⟨files, stdout, lines⟩ =
      (written, ⟨after, stdout, lines⟩) := by
  change ((Files.writeText files path text).1,
    World.mk (Files.writeText files path text).2 stdout lines) = _
  rw [writes]

theorem outcome_deliver_of_ok (silent : lines.find? isDiagnostic = none) {files after : σ}
    {path text : String} (writes : Files.writeText files path text = (.ok (), after)) :
    outcome (deliver text (some path)) ⟨files, "", lines⟩ = ⟨0, "", none, after⟩ := by
  rw [deliver, outcome_bind (run_writeText writes "" lines)]
  change Outcome.mk 0 "" (lines.find? isDiagnostic) after = _
  rw [silent]

theorem outcome_deliver_of_error (silent : lines.find? isDiagnostic = none) {files after : σ}
    {path text : String} {fault : FileFault}
    (writes : Files.writeText files path text = (.error fault, after)) :
    outcome (deliver text (some path)) ⟨files, "", lines⟩ = failed after (.file fault) := by
  rw [deliver, outcome_bind (run_writeText writes "" lines)]
  exact outcome_fail silent after (.file fault)

/-- Lines that report no error do not matter to how a program ends. -/
theorem outcome_conclude_of_silent (silent : lines.find? isDiagnostic = none) (files : σ)
    (generated : Except Error String) (output : Option String) :
    outcome (conclude generated output) ⟨files, "", lines⟩ =
      outcome (conclude generated output) (.start files) := by
  have none : ([] : List String).find? isDiagnostic = none := rfl
  unfold conclude World.start
  cases generated with
  | error error => simp only [outcome_fail silent, outcome_fail none]
  | ok text =>
      cases output with
      | none => simp only [outcome_deliver_none silent, outcome_deliver_none none]
      | some path =>
          rcases writes : Files.writeText files path text with ⟨fault | _, after⟩
          · simp only [outcome_deliver_of_error silent writes,
              outcome_deliver_of_error none writes]
          · simp only [outcome_deliver_of_ok silent writes, outcome_deliver_of_ok none writes]

/-! ## Runs with checked options -/

/-- The text that options ask for, or the error that prevents it. -/
def Options.product (options : Options) (files : σ) : Except Error String := do
  let input ← (options.input files).mapError .file
  (options.generate input).outcome

theorem Options.product_of_input {options : Options} {files : σ} {input : String}
    (read : options.input files = .ok input) :
    options.product files = (options.generate input).outcome := by
  rw [product, read]
  rfl

/-- The lines of events report no error. -/
theorem find?_map_eventLine (events : List Event) :
    (events.map eventLine).find? isDiagnostic = none := by
  rw [List.find?_eq_none]
  intro line member
  rcases List.mem_map.mp member with ⟨event, _, rfl⟩
  simp [isDiagnostic_eventLine event]

/-- What a run leaves behind depends on the text or the error that its options lead to, and
on where the text is to go. -/
theorem outcome_perform (options : Options) (files : σ) :
    outcome (perform options) (.start files) =
      outcome (conclude (options.product files) options.output) (.start files) := by
  rw [perform, outcome_bind (run_readInput options (.start files))]
  simp only [World.start, Options.product]
  cases options.input files with
  | error fault => rfl
  | ok input =>
      simp only
      rw [reportEvents, outcome_bind (run_forM_report _ _), List.nil_append,
        outcome_conclude_of_silent (find?_map_eventLine _)]
      rfl

end

end Fieldmap.CommandLine
