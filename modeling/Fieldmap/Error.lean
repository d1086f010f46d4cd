import Fieldmap.CommandLine.Files
import Fieldmap.DumpFormat
import Fieldmap.Record.Table
import Fieldmap.Record.Validity
import Fieldmap.Spec.Error

/-!
# Errors

Whatever the library refuses, it refuses for one cause. The message of an error
names the stage that found it.
-/

namespace Fieldmap

/-- An error of any stage. -/
inductive Error where
  | file (fault : CommandLine.FileFault)
  | spec (error : Spec.Error)
  | format (fault : FormatFault)
  | unknownType (name : String)
  | missingDefault (missing : MissingDefault)
  | violation (violation : Violation)
  deriving DecidableEq, Repr

/-- The wording of an error. -/
def Error.message : Error → String
  | .file fault => "I/O error: " ++ fault.message
  | .spec error => error.message
  | .format fault => "Malformed input: " ++ fault.message
  | .unknownType name => "Unknown field type \"" ++ name ++ "\""
  | .missingDefault missing => "Resolution error: " ++ missing.message
  | .violation broken => "Verifier error: " ++ broken.message

end Fieldmap
