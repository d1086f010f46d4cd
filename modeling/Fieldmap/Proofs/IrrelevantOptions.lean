import Fieldmap.Proofs.GivenOptions
import Fieldmap.Proofs.OverrideLookup
import Fieldmap.Proofs.RunEffect

/-!
# Options that change nothing

Every given option writes one place of the options and reads no other. An option can thus
be put in or left out without any effect on how the others are taken, and what a run does
depends only on the places that it reads.
-/

namespace Fieldmap.CommandLine

/-! ## One given option -/

/-- What an option needs to be taken. -/
def Given.Fits : Given → Options → Prop
  | .flag .specify, options => options.specify = false
  | .flag .dumpModel, options => options.dumpModel = false
  | .flag .verbose, options => options.verbose = false
  | .flag .help, _ => False
  | .setting .spec value, options => value ≠ [] ∧ options.spec = none
  | .setting .format value, options => value ≠ [] ∧ options.format = none
  | .setting .output value, options => value ≠ [] ∧ options.output = none
  | .setting .override value, _ => (Options.overrideOf? value).isSome

/-- What an option changes where it is taken. -/
def Given.apply : Given → Options → Options
  | .flag .specify, options => { options with specify := true }
  | .flag .dumpModel, options => { options with dumpModel := true }
  | .flag .verbose, options => { options with verbose := true }
  | .flag .help, options => options
  | .setting .spec value, options => { options with spec := some (String.ofList value) }
  | .setting .format value, options => { options with format := some (String.ofList value) }
  | .setting .output value, options => { options with output := some (String.ofList value) }
  | .setting .override value, options =>
      { options with overrides := options.overrides ++ (Options.overrideOf? value).toList }

namespace Options

/-- A flag is raised once. -/
theorem raise_once_eq_ok_iff {raised : Bool} {refusal : Refusal} {value next : Options} :
    (if raised then .error refusal else .ok value) = Except.ok next ↔
      raised = false ∧ next = value := by
  cases raised <;> simp [eq_comm]

/-- A path is set once, and to no empty one. -/
theorem set_path_eq_ok_iff {setting : Setting} {given : Option String} {value : List Char}
    {place : Option String → Options} {next : Options} :
    (do return place (← path setting given value)) = Except.ok next ↔
      (value ≠ [] ∧ given = none) ∧ next = place (some (String.ofList value)) := by
  unfold path
  by_cases empty : value = []
  · simp [empty, bind, Except.bind]
  · cases given <;> simp [empty, bind, Except.bind, pure, Except.pure, eq_comm]

/-- An option that fits is taken, and any other one is refused. -/
theorem give_eq_ok_iff {options next : Options} {given : Given} :
    options.give given = .ok next ↔ given.Fits options ∧ next = given.apply options := by
  cases given with
  | flag flag =>
      cases flag with
      | help => simp [give, raise, Given.Fits]
      | specify | dumpModel | verbose => exact raise_once_eq_ok_iff
  | setting setting value =>
      cases setting with
      | spec | format | output => exact set_path_eq_ok_iff
      | override =>
          cases found : overrideOf? value <;>
            simp [give, set, Given.Fits, Given.apply, found, eq_comm]

theorem giveAll_cons_eq_ok_iff {options result : Options} {given : Given} {rest : List Given} :
    options.giveAll (given :: rest) = .ok result ↔
      given.Fits options ∧ (given.apply options).giveAll rest = .ok result := by
  rw [giveAll_cons]
  constructor
  · intro taken
    rcases exists_of_bind_eq_ok taken with ⟨next, given, taken⟩
    rcases give_eq_ok_iff.mp given with ⟨fits, rfl⟩
    exact ⟨fits, taken⟩
  · rintro ⟨fits, taken⟩
    rw [give_eq_ok_iff.mpr ⟨fits, rfl⟩]
    exact taken

end Options

/-! ## All given options -/

/-- An update of the options that does not matter to a given option. -/
structure Given.Ignores (given : Given) (update : Options → Options) : Prop where
  fits : ∀ options, given.Fits options → given.Fits (update options)
  apply : ∀ options, given.apply (update options) = update (given.apply options)

/-- An update that clears away what options change, but for those to keep. -/
structure ClearsBut (keep : Given → Bool) (update : Options → Options) : Prop where
  kept : ∀ given, keep given = true → given.Ignores update
  dropped : ∀ given options, keep given = false → update (given.apply options) = update options

namespace Options

variable {options result : Options} {givens : List Given}

/-- An update that matters to no given option can be made before or after them. -/
theorem giveAll_update {update : Options → Options}
    (ignored : ∀ given ∈ givens, given.Ignores update)
    (taken : options.giveAll givens = .ok result) :
    (update options).giveAll givens = .ok (update result) := by
  induction givens generalizing options with
  | nil =>
      cases taken
      rfl
  | cons given rest ih =>
      rcases giveAll_cons_eq_ok_iff.mp taken with ⟨fits, taken⟩
      rcases List.forall_mem_cons.mp ignored with ⟨ignores, restIgnored⟩
      rw [giveAll_cons_eq_ok_iff, ignores.apply]
      exact ⟨ignores.fits options fits, ih restIgnored taken⟩

/-- What every given option keeps holds behind them all. -/
theorem giveAll_keeps {property : Options → Prop}
    (kept : ∀ given ∈ givens, ∀ options, property options → property (given.apply options))
    (holds : property options) (taken : options.giveAll givens = .ok result) :
    property result := by
  induction givens generalizing options with
  | nil =>
      cases taken
      exact holds
  | cons given rest ih =>
      rcases giveAll_cons_eq_ok_iff.mp taken with ⟨_, taken⟩
      rcases List.forall_mem_cons.mp kept with ⟨keeps, restKept⟩
      exact ih restKept (keeps options holds) taken

/-- An option may be given behind any others to which its effect does not matter. -/
theorem giveAll_insert {front rest : List Given} {added : Given}
    (fits : ∀ reached, options.giveAll front = .ok reached → added.Fits reached)
    (ignored : ∀ given ∈ rest, given.Ignores added.apply)
    (taken : options.giveAll (front ++ rest) = .ok result) :
    options.giveAll (front ++ added :: rest) = .ok (added.apply result) := by
  rw [giveAll_append] at taken ⊢
  rcases exists_of_bind_eq_ok taken with ⟨reached, frontTaken, taken⟩
  rw [frontTaken]
  exact giveAll_cons_eq_ok_iff.mpr ⟨fits reached frontTaken, giveAll_update ignored taken⟩

/-- Options that an update clears away can be left out. -/
theorem giveAll_filter {update : Options → Options} {keep : Given → Bool}
    (clears : ClearsBut keep update) (taken : options.giveAll givens = .ok result) :
    (update options).giveAll (givens.filter keep) = .ok (update result) := by
  induction givens generalizing options with
  | nil =>
      cases taken
      rfl
  | cons given rest ih =>
      rcases giveAll_cons_eq_ok_iff.mp taken with ⟨fits, taken⟩
      have restTaken := ih taken
      cases kept : keep given with
      | true =>
          have ignores := clears.kept given kept
          rw [List.filter_cons_of_pos kept, giveAll_cons_eq_ok_iff, ignores.apply]
          exact ⟨ignores.fits options fits, restTaken⟩
      | false =>
          rw [List.filter_cons_of_neg (by simp [kept]), ← clears.dropped given options kept]
          exact restTaken

end Options

/-! ## New options -/

/-- The option that is given, without its value. -/
def Given.option : Given → OptionName
  | .flag raised => .flag raised
  | .setting place _ => .setting place

/-- Different options write different places, and each reads no place but its own. -/
theorem Given.ignores_apply {given other : Given} (different : given.option ≠ other.option) :
    given.Ignores other.apply := by
  -- One case for each pair of options, where the two updates compute to the same record.
  constructor <;> intro options <;>
    rcases given with ⟨_ | _⟩ | ⟨_ | _, value⟩ <;>
    rcases other with ⟨_ | _⟩ | ⟨_ | _, otherValue⟩ <;>
    first | exact id | rfl | exact absurd rfl different

/-- An option that fits where nothing is given fits wherever it is not given yet. -/
theorem Options.fits_of_new {options : Options} {givens : List Given} {added : Given}
    (fits : added.Fits .empty) (new : added.option ∉ givens.map Given.option)
    (taken : Options.empty.giveAll givens = .ok options) : added.Fits options := by
  have kept : ∀ given ∈ givens, ∀ options,
      added.Fits options → added.Fits (given.apply options) := by
    intro given member
    apply Given.Ignores.fits
    apply Given.ignores_apply
    intro same
    exact new (List.mem_map.mpr ⟨given, member, same.symm⟩)
  exact giveAll_keeps kept fits taken

/-! ## Accepted arguments -/

/-- Options that make sense together. -/
structure Options.Consistent (options : Options) : Prop where
  apart : ¬ (options.specify = true ∧ options.forSpec = true)
  complete : options.forFormat = true → options.specify = true ∨ options.forSpec = true

theorem Options.check_eq_ok_iff {options result : Options} :
    options.check = .ok result ↔ options.Consistent ∧ result = options := by
  unfold check
  split
  · rename_i conflict
    rw [Bool.and_eq_true] at conflict
    exact iff_of_false nofun fun checked => checked.1.apart conflict
  · rename_i apart
    rw [Bool.and_eq_true] at apart
    split
    · rename_i incomplete
      simp only [Bool.and_eq_true, Bool.not_eq_true'] at incomplete
      refine iff_of_false nofun fun checked => ?_
      have complete := checked.1.complete incomplete.1.1
      simp [incomplete.1.2, incomplete.2] at complete
    · rename_i complete
      have consistent : options.Consistent := by
        refine ⟨apart, fun forFormat => ?_⟩
        simpa [forFormat, Decidable.or_iff_not_imp_left] using complete
      rw [Except.ok.injEq, and_iff_right consistent, eq_comm]

/-- Arguments are accepted when what they give is taken and makes sense together. -/
theorem Gives.accepted_iff {arguments : List String} {givens : List Given} {options : Options}
    (gives : Gives arguments givens) :
    Options.ofArguments arguments = .ok options ↔
      Options.empty.giveAll givens = .ok options ∧ options.Consistent := by
  rw [gives.ofArguments_eq]
  constructor
  · intro accepted
    rcases exists_of_bind_eq_ok accepted with ⟨result, taken, checked⟩
    rcases Options.check_eq_ok_iff.mp checked with ⟨consistent, rfl⟩
    exact ⟨taken, consistent⟩
  · rintro ⟨taken, consistent⟩
    rw [taken]
    exact Options.check_eq_ok_iff.mpr ⟨consistent, rfl⟩

/-- A new option may be given anywhere among others. -/
theorem Gives.accepted_insert {extended : List String} {front rest : List Given} {added : Given}
    {options : Options} (gives : Gives extended (front ++ added :: rest))
    (fits : added.Fits .empty) (new : added.option ∉ (front ++ rest).map Given.option)
    (taken : Options.empty.giveAll (front ++ rest) = .ok options)
    (consistent : (added.apply options).Consistent) :
    Options.ofArguments extended = .ok (added.apply options) := by
  rw [List.map_append, List.mem_append, not_or] at new
  refine gives.accepted_iff.mpr ⟨?_, consistent⟩
  apply Options.giveAll_insert (fun reached => Options.fits_of_new fits new.1) _ taken
  intro given member
  apply Given.ignores_apply
  intro same
  exact new.2 (List.mem_map.mpr ⟨given, member, same⟩)

/-! ## Options that a run does not read -/

section

variable {σ : Type}

/-- What becomes of a run that prints, among some files, once it is to write to a path. -/
structure Redirected (view : FileView σ) (files : σ) (path : String)
    (printing writing : Outcome σ) : Prop where
  /-- The file at the path holds what would have been printed, or the run fails over it without
  effect. -/
  delivers : printing.status = 0 →
    Delivered view files printing.stdout (some path) writing ∨
      ∃ fault, writing = failed files (.file fault)
  /-- A run that has failed before fails in the same way. -/
  fails : printing.status = 1 → writing = printing

variable [Files σ]

/-- Events that are reported on demand do not matter to what a run leaves behind. -/
theorem outcome_perform_verbose (options : Options) (files : σ) :
    outcome (perform { options with verbose := true }) (.start files) =
      outcome (perform options) (.start files) := by
  rw [outcome_perform, outcome_perform]
  rfl

/-- Where a run prints, it would write the same text to a file, and fail in the same way. -/
theorem redirected_perform {view : FileView σ} {files : σ} {path : String}
    (atomic : view.AtomicAt files path) {options : Options} (printing : options.output = none) :
    Redirected view files path (outcome (perform options) (.start files))
      (outcome (perform { options with output := some path }) (.start files)) := by
  have product : ({ options with output := some path } : Options).product files =
      options.product files := rfl
  rw [outcome_perform, outcome_perform, product, printing]
  cases options.product files with
  | error error =>
      refine ⟨?_, fun _ => rfl⟩
      intro succeeds
      cases succeeds
  | ok text =>
      have atOutput : ∀ output ∈ some path, view.AtomicAt files output := by
        rintro output ⟨⟩
        exact atomic
      refine ⟨fun _ => delivered_or_failed atOutput text, ?_⟩
      intro fails
      cases fails

end

section

variable {m : Type → Type} [Monad m] [Host m]

/-- The options without those that only matter for a dump format. -/
def Options.withoutFormat (options : Options) : Options :=
  { options with format := none, overrides := [] }

/-- A specification is compiled without a look at options for dump formats, on any host. -/
theorem perform_withoutFormat {options : Options} (spec : options.specify = false) :
    (perform options.withoutFormat : m Nat) = perform options := by
  rcases options with ⟨specify, dumpModel, verbose, specPath, format, output, overrides⟩
  cases spec
  rfl

/-- The options without overrides. -/
def Options.withoutOverrides (options : Options) : Options :=
  { options with overrides := [] }

/-- Of the overrides of one name a run only sees the last, on any host. -/
theorem perform_congr {left right : Options}
    (same : left.withoutOverrides = right.withoutOverrides)
    (lastTypes : ∀ name, lastType? left.overrides name = lastType? right.overrides name) :
    (perform left : m Nat) = perform right := by
  rcases left with ⟨specify, dumpModel, verbose, spec, format, output, leftOverrides⟩
  rcases right with ⟨_, _, _, _, _, _, rightOverrides⟩
  cases same
  have agree : (Overrides.default.insertAll leftOverrides).Agree
      (Overrides.default.insertAll rightOverrides) :=
    Overrides.agree_insertAll _ lastTypes
  have generate (input : String) :
      Options.generate ⟨specify, dumpModel, verbose, spec, format, output, leftOverrides⟩ input =
        Options.generate ⟨specify, dumpModel, verbose, spec, format, output, rightOverrides⟩
          input := by
    simp only [Options.generate, DumpFormat.fields_congr agree]
  simp only [perform, generate]
  rfl

end

/-! ## Options left out -/

namespace Given

/-- The name and the type that an override gives. -/
def override? : Given → Option (String × FieldType)
  | .setting .override value => Options.overrideOf? value
  | _ => none

def isOverride (given : Given) : Bool :=
  given.option == .setting .override

/-- Whether an option makes sense only for a dump format. -/
def isForFormat (given : Given) : Bool :=
  given.option == .setting .format || given.isOverride

theorem clearsBut_withoutOverrides :
    ClearsBut (fun given => !given.isOverride) Options.withoutOverrides := by
  constructor
  · intro given kept
    constructor <;> intro options <;> rcases given with ⟨_ | _⟩ | ⟨_ | _, value⟩ <;>
      first | exact id | rfl | cases kept
  · intro given options dropped
    rcases given with ⟨_ | _⟩ | ⟨_ | _, value⟩ <;> first | rfl | cases dropped

theorem clearsBut_withoutFormat :
    ClearsBut (fun given => !given.isForFormat) Options.withoutFormat := by
  constructor
  · intro given kept
    constructor <;> intro options <;> rcases given with ⟨_ | _⟩ | ⟨_ | _, value⟩ <;>
      first | exact id | rfl | cases kept
  · intro given options dropped
    rcases given with ⟨_ | _⟩ | ⟨_ | _, value⟩ <;> first | rfl | cases dropped

theorem overrides_apply (given : Given) (options : Options) :
    (given.apply options).overrides = options.overrides ++ given.override?.toList := by
  rcases given with ⟨_ | _⟩ | ⟨_ | _, value⟩ <;>
    first | exact (List.append_nil options.overrides).symm | rfl

end Given

/-- The overrides are those given, in order. -/
theorem Options.overrides_giveAll {options result : Options} {givens : List Given}
    (taken : options.giveAll givens = .ok result) :
    result.overrides = options.overrides ++ givens.filterMap Given.override? := by
  induction givens generalizing options with
  | nil =>
      cases taken
      exact (List.append_nil _).symm
  | cons given rest ih =>
      rcases giveAll_cons_eq_ok_iff.mp taken with ⟨_, taken⟩
      rw [ih taken, given.overrides_apply, List.append_assoc]
      cases found : given.override? <;> simp [found]

/-! ## Runs -/

section

variable {σ : Type} [Files σ] {files : σ} {arguments changed : List String} {options : Options}
  {front rest givens : List Given}

/-- It does not matter whether a run is verbose. -/
theorem run_verbose (accepted : Options.ofArguments arguments = .ok options)
    (gives : Gives arguments (front ++ rest))
    (new : .flag .verbose ∉ (front ++ rest).map Given.option)
    (verbose : Gives changed (front ++ .flag .verbose :: rest)) :
    run changed files = run arguments files := by
  rcases gives.accepted_iff.mp accepted with ⟨taken, consistent⟩
  have verboseConsistent : ((Given.flag .verbose).apply options).Consistent :=
    ⟨consistent.apart, consistent.complete⟩
  rw [run_eq_perform (verbose.accepted_insert rfl new taken verboseConsistent),
    run_eq_perform accepted]
  exact outcome_perform_verbose options files

/-- A file takes the text that would be printed, if it can be written at all, and what fails
without it fails in the same way. -/
theorem run_output {view : FileView σ} {path : List Char}
    (atomic : view.AtomicAt files (String.ofList path))
    (accepted : Options.ofArguments arguments = .ok options)
    (gives : Gives arguments (front ++ rest))
    (new : .setting .output ∉ (front ++ rest).map Given.option) (filled : path ≠ [])
    (written : Gives changed (front ++ .setting .output path :: rest)) :
    Redirected view files (String.ofList path) (run arguments files) (run changed files) := by
  rcases gives.accepted_iff.mp accepted with ⟨taken, consistent⟩
  have fits : (Given.setting .output path).Fits .empty := ⟨filled, rfl⟩
  have writtenConsistent : ((Given.setting .output path).apply options).Consistent :=
    ⟨consistent.apart, consistent.complete⟩
  rw [run_eq_perform (written.accepted_insert fits new taken writtenConsistent),
    run_eq_perform accepted]
  have printing := (Options.fits_of_new fits new taken).2
  exact redirected_perform atomic printing

end

section

variable {m : Type → Type} [Monad m] [Host m] {arguments changed : List String}
  {options : Options} {givens : List Given}

/-- Where no dump format is compiled, options for one do not matter. -/
theorem execute_withoutFormat (accepted : Options.ofArguments arguments = .ok options)
    (gives : Gives arguments givens) (spec : .flag .specify ∉ givens.map Given.option)
    (shortened : Gives changed (givens.filter fun given => !given.isForFormat)) :
    (execute changed : m Nat) = execute arguments := by
  rcases gives.accepted_iff.mp accepted with ⟨taken, consistent⟩
  have shortTaken := Options.giveAll_filter Given.clearsBut_withoutFormat taken
  have shortAccepted := shortened.accepted_iff.mpr ⟨shortTaken, consistent.apart, nofun⟩
  rw [execute_eq_perform shortAccepted, execute_eq_perform accepted]
  have unspecified : (Given.flag .specify).Fits options := Options.fits_of_new rfl spec taken
  exact perform_withoutFormat unspecified

/-- Only the last override of every name matters. -/
theorem execute_lastTypes {changedOptions : Options} {changedGivens : List Given}
    (accepted : Options.ofArguments arguments = .ok options) (gives : Gives arguments givens)
    (changedAccepted : Options.ofArguments changed = .ok changedOptions)
    (changedGives : Gives changed changedGivens)
    (others : changedGivens.filter (fun given => !given.isOverride) =
      givens.filter fun given => !given.isOverride)
    (lastTypes : ∀ name, lastType? (changedGivens.filterMap Given.override?) name =
      lastType? (givens.filterMap Given.override?) name) :
    (execute changed : m Nat) = execute arguments := by
  have taken := (gives.accepted_iff.mp accepted).1
  have changedTaken := (changedGives.accepted_iff.mp changedAccepted).1
  have bare {options : Options} {givens : List Given}
      (taken : Options.empty.giveAll givens = .ok options) :=
    Options.giveAll_filter Given.clearsBut_withoutOverrides taken
  have same : changedOptions.withoutOverrides = options.withoutOverrides := by
    have changedBare := bare changedTaken
    rw [others, bare taken] at changedBare
    exact (Except.ok.inj changedBare).symm
  rw [execute_eq_perform changedAccepted, execute_eq_perform accepted]
  apply perform_congr same
  intro name
  rw [Options.overrides_giveAll changedTaken, Options.overrides_giveAll taken]
  exact lastTypes name

end

/-- What can be changed about the options of a run among some files without a change to what
it does. -/
structure Indifferent {σ : Type} [Files σ] (view : FileView σ) (arguments : List String)
    (givens : List Given) (files : σ) : Prop where
  /-- The option to be verbose may be added. -/
  verbose : ∀ extended front rest, givens = front ++ rest →
    .flag .verbose ∉ givens.map Given.option → Gives extended (front ++ .flag .verbose :: rest) →
    run extended files = run arguments files
  /-- An output may be added that is written as a whole or not at all. -/
  output : ∀ extended front rest path, givens = front ++ rest →
    .setting .output ∉ givens.map Given.option → path ≠ [] →
    Gives extended (front ++ .setting .output path :: rest) →
    view.AtomicAt files (String.ofList path) →
    Redirected view files (String.ofList path) (run arguments files) (run extended files)
  /-- Without a dump format to compile, options for one may be left out. -/
  format : ∀ shortened, .flag .specify ∉ givens.map Given.option →
    Gives shortened (givens.filter fun given => !given.isForFormat) →
    run shortened files = run arguments files
  /-- Overrides may be exchanged for others that give every name the same last type. -/
  overrides : ∀ others otherGivens otherOptions,
    Options.ofArguments others = .ok otherOptions → Gives others otherGivens →
    otherGivens.filter (fun given => !given.isOverride) =
      givens.filter (fun given => !given.isOverride) →
    (∀ name, lastType? (otherGivens.filterMap Given.override?) name =
      lastType? (givens.filterMap Given.override?) name) →
    run others files = run arguments files

/-- Accepted arguments give options, and whichever they give, a run among any files is
indifferent to verbosity, to options that it does not read and to overrides that later ones
replace. Where its text goes does not change the text. -/
theorem run_indifferent {σ : Type} [Files σ] (view : FileView σ) {arguments : List String}
    {options : Options} (accepted : Options.ofArguments arguments = .ok options) (files : σ) :
    (∃ givens, Gives arguments givens) ∧
    ∀ givens, Gives arguments givens → Indifferent view arguments givens files := by
  refine ⟨exists_gives_of_ofArguments accepted, fun givens gives => ?_⟩
  constructor
  · rintro extended front rest rfl new verbose
    exact run_verbose accepted gives new verbose
  · rintro extended front rest path rfl new filled written atomic
    exact run_output atomic accepted gives new filled written
  · intro shortened spec shortGives
    rw [run, execute_withoutFormat accepted gives spec shortGives, run]
  · intro others otherGivens otherOptions otherAccepted otherGives same lastTypes
    rw [run, execute_lastTypes accepted gives otherAccepted otherGives same lastTypes, run]

/-- Arguments that dump records, with an override that has no effect there. -/
def dumpArguments : List String := ["--dump-model", "--override=a=real"]

theorem run_indifferent_dumpArguments :
    Options.ofArguments dumpArguments =
      .ok ⟨false, true, false, none, none, none, [("a", .real)]⟩ ∧
    (∀ path, Directory.view.AtomicAt .empty path) ∧
    (∃ givens, Gives dumpArguments givens) ∧
    ∀ givens, Gives dumpArguments givens →
      Indifferent Directory.view dumpArguments givens .empty :=
  ⟨rfl, Directory.atomicAt_view .empty, run_indifferent Directory.view rfl .empty⟩

end Fieldmap.CommandLine
