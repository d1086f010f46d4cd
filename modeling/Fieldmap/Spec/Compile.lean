import Fieldmap.Error
import Fieldmap.Spec.Reader
import Fieldmap.Token.Stream

/-!
# Compiling a specification

A specification is cut into tokens, read as records, and its records are checked.
-/

namespace Fieldmap.Spec

/-- The records of a specification, not yet checked. -/
def read (text : String) : Except Error (List Record) := do
  recordsOf (← Token.ofText text)

/-- The valid records of a specification. -/
def compile (text : String) : Traced Fieldmap.Error (List Record) := do
  let records ← Traced.ofExcept ((read text).mapError .spec)
  Traced.ofExcept ((checkRecords records).mapError .violation)
  Traced.report (.specCompiled records.length)
  return records

end Fieldmap.Spec
