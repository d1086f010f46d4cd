import Fieldmap.Builtin
import Fieldmap.CommandLine.Files
import Fieldmap.CommandLine.Help
import Fieldmap.Record.Dump
import Fieldmap.Spec.FieldmapBlock

/-!
# The program

The program reads one input, generates one text and delivers it, to a file or to the
standard output. Events and errors are reported line by line on the standard error stream.
Nothing is delivered before the whole text has been generated. The program is the same on
every host: all that it does beyond computing is asked of the host, one step at a time.
-/

namespace Fieldmap.CommandLine

/-- What a program asks of its host, in whose monad it runs. -/
class Host (m : Type → Type) where
  /-- Read the text in the file at a path. -/
  readText (path : String) : m (Except FileFault String)
  /-- Write a text to the file at a path. -/
  writeText (path text : String) : m (Except FileFault Unit)
  /-- Put a text on the standard output. -/
  print (text : String) : m Unit
  /-- Put a line on the standard error stream. -/
  report (line : String) : m Unit

namespace Options

/-- The file to read, if the built-in input is not to be used. -/
def inputPath? (options : Options) : Option String :=
  if options.specify then options.format else options.spec

/-- The input used where no file is given. -/
def builtinInput (options : Options) : String :=
  if options.specify then Builtin.format else Builtin.spec

/-- The text generated from an input. -/
def generate (options : Options) (input : String) : Traced Error String :=
  if options.specify then do
    let overrides := Overrides.default.insertAll options.overrides
    let fields ← (DumpFormat.fields overrides input).mapError .format
    return Spec.fieldmapBlock fields
  else do
    let records ← Spec.compile input
    if options.dumpModel then return dumpRecords records ++ "\n"
    else (tables records).mapError .missingDefault

end Options

/-- How the line that reports an error begins. -/
def diagnosticOpening : String := "jsongen: "

/-- The line that reports an error. -/
def diagnostic (error : Error) : String :=
  diagnosticOpening ++ error.message

/-- Whether an event is reported: warnings always, all others on demand. -/
def isReported (options : Options) (event : Event) : Bool :=
  options.verbose || event.level == .warn

/-- The line that reports an event. -/
def eventLine (event : Event) : String :=
  event.values.foldl (fun line value => line ++ " " ++ value.1 ++ "=" ++ value.2)
    (event.level.name ++ " " ++ event.message)

section

variable {m : Type → Type} [Monad m] [Host m]

/-- The input of a run. -/
def readInput (options : Options) : m (Except FileFault String) :=
  match options.inputPath? with
  | none => return .ok options.builtinInput
  | some path => Host.readText path

/-- Report the events that options ask for. -/
def reportEvents (options : Options) (events : List Event) : m Unit :=
  ((events.filter (isReported options)).map eventLine).forM Host.report

/-- End with an error. -/
def fail (error : Error) : m Nat := do
  Host.report (diagnostic error)
  return 1

/-- Deliver a generated text. -/
def deliver (text : String) (output : Option String) : m Nat :=
  match output with
  | none => do
      Host.print text
      return 0
  | some path => do
      match ← Host.writeText path text with
      | .error fault => fail (.file fault)
      | .ok () => return 0

/-- Deliver what has been generated, or end with the error that has prevented it. -/
def conclude (generated : Except Error String) (output : Option String) : m Nat :=
  match generated with
  | .error error => fail error
  | .ok text => deliver text output

/-- Run with checked options. -/
def perform (options : Options) : m Nat := do
  match ← readInput options with
  | .error fault => fail (.file fault)
  | .ok input => do
      let generated := options.generate input
      reportEvents options generated.events
      conclude generated.outcome options.output

/-- Answer arguments that lead to no run. -/
def refuse (refusal : Refusal) : m Nat :=
  match refusal with
  | .help => do
      Host.print helpText
      return 0
  | refusal => do
      Host.report ("error: " ++ refusal.message)
      return 2

/-- Run with the arguments of the command line. The status is zero for success, one for an
error, and two for arguments that make no sense. -/
def execute (arguments : List String) : m Nat :=
  match Options.ofArguments arguments with
  | .error refusal => refuse refusal
  | .ok options => perform options

end

end Fieldmap.CommandLine
