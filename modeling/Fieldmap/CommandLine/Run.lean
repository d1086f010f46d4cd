import Fieldmap.CommandLine.Directory
import Fieldmap.CommandLine.Program

/-!
# Runs

Any states of files make a host, together with the two streams that the program writes to.
A run on this host shows what the program does to the files and to those who called it.
-/

namespace Fieldmap.CommandLine

/-- Files at hand, and what has been put on the standard output and, line by line, on the
standard error stream. -/
structure World (σ : Type) where
  files : σ
  stdout : String
  stderr : List String

section

variable {σ : Type}

/-- The world in which a program starts. -/
def World.start (files : σ) : World σ :=
  ⟨files, "", []⟩

instance [Files σ] : Host (StateM (World σ)) where
  readText path := do return Files.readText (← get).files path
  writeText path text := modifyGet fun world =>
    let written := Files.writeText world.files path text
    (written.1, { world with files := written.2 })
  print text := modify fun world => { world with stdout := world.stdout ++ text }
  report line := modify fun world => { world with stderr := world.stderr ++ [line] }

/-- What a run leaves behind. -/
structure Outcome (σ : Type) where
  /-- Zero for success, one for an error, two for arguments that make no sense. -/
  status : Nat
  stdout : String
  /-- The line that reports an error. -/
  diagnostic : Option String
  /-- The files that the program has run among. -/
  directory : σ

/-- A line that reports an error, and no event. -/
def isDiagnostic (line : String) : Bool :=
  diagnosticOpening.toList.isPrefixOf line.toList

/-- What a program leaves behind that runs in a world. -/
def outcome (program : StateM (World σ) Nat) (world : World σ) : Outcome σ :=
  let result := program.run world
  ⟨result.1, result.2.stdout, result.2.stderr.find? isDiagnostic, result.2.files⟩

/-- Run with some arguments among some files, such as those of a directory. -/
def run [Files σ] (arguments : List String) (files : σ) : Outcome σ :=
  outcome (execute arguments) (.start files)

end

end Fieldmap.CommandLine
