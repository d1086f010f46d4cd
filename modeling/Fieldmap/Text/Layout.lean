/-!
# Layout of generated text

Generated text is a list of lines, each ended by a line feed. Columns are aligned
with spaces, and a text's width is its number of UTF-8 bytes.
-/

namespace Fieldmap.Text

/-- A run of spaces. -/
def spaces (count : Nat) : String :=
  String.ofList (List.replicate count ' ')

/-- The spaces that fill a text up to a width; none once it is as wide. -/
def pad (text : String) (width : Nat) : String :=
  spaces (width - text.utf8ByteSize)

/-- Lines written one below the other, each ended by a line feed. -/
def unlines (lines : List String) : String :=
  String.ofList (lines.flatMap fun line => line.toList ++ ['\n'])

end Fieldmap.Text
