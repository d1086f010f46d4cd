import Fieldmap.CommandLine.Program

/-!
# The program on the files of the system

The system is a host of the program, by the paths of its file system and by the standard
streams of the process.
-/

namespace Fieldmap.Main

open CommandLine

/-- The number under which the system refuses a directory in place of a file. -/
def isDirectoryCode : UInt32 := 21

/-- The fault behind a refusal of the system. -/
def faultOf : IO.Error → FileFault
  | .noFileOrDirectory .. => .notFound
  | .inappropriateType _ code _ =>
      if code = isDirectoryCode then .isDirectory else .notDirectory
  | .invalidArgument .. => .nameTooLong
  | error => .other (toString error)

instance : Host IO where
  readText path := do
    match ← (IO.FS.readBinFile path).toBaseIO with
    | .error error => return .error (faultOf error)
    | .ok content => return decode content
  writeText path text := do
    match ← (IO.FS.writeFile path text).toBaseIO with
    | .error error => return .error (faultOf error)
    | .ok () => return .ok ()
  print text := IO.print text
  report line := IO.eprintln line

end Fieldmap.Main

/-- Run with the arguments of the command line. -/
def main (arguments : List String) : IO UInt32 := do
  return UInt32.ofNat (← Fieldmap.CommandLine.execute arguments)
