/-!
# Files

A program reads texts from files and writes texts to them. What lies behind a path, and
which paths can be read or written, is a matter of the files at hand.
-/

namespace Fieldmap.CommandLine

/-- Why a file cannot be read or written. -/
inductive FileFault where
  | notFound
  | notDirectory
  | isDirectory
  | nameTooLong
  | notText
  /-- Any other refusal, in the words of the system. -/
  | other (message : String)
  deriving DecidableEq, Repr

/-- The wording of a fault. -/
def FileFault.message : FileFault → String
  | notFound => "No such file or directory (os error 2)"
  | notDirectory => "Not a directory (os error 20)"
  | isDirectory => "Is a directory (os error 21)"
  | nameTooLong => "File name too long (os error 36)"
  | notText => "stream did not contain valid UTF-8"
  | other message => message

/-- The text that bytes spell in UTF-8. -/
def decode (content : ByteArray) : Except FileFault String :=
  match String.fromUTF8? content with
  | none => .error .notText
  | some text => .ok text

/-- States of files that texts can be read from and written to. Reading changes nothing.
Writing leads to another state, whether it fails or not. -/
class Files (σ : Type) where
  /-- The text in the file at a path. -/
  readText (files : σ) (path : String) : Except FileFault String
  /-- Whether a text can be written to the file at a path, and the files after that. -/
  writeText (files : σ) (path text : String) : Except FileFault Unit × σ

end Fieldmap.CommandLine
