import Fieldmap.Proofs.Grammar.Completeness
import Fieldmap.Proofs.Grammar.Soundness

/-!
# The language of the reader

The reader takes exactly the specifications, with exactly the records that the
grammar derives from them.
-/

namespace Fieldmap.Spec

/-- A list of tokens with no empty one before its last is read exactly when the
grammar derives it, and as the records that the grammar derives. -/
theorem recordsOf_eq_ok_iff_derivesFile {body : List Token} {last : Token}
    (filled : ∀ token ∈ body, token.text ≠ "") (records : List Record) :
    recordsOf (body ++ [last]) = .ok records ↔ DerivesFile (body ++ [last]) records := by
  constructor
  · intro read
    obtain ⟨file, rest, whole, derived⟩ := derivesFile_of_recordsOf read (by simp)
    cases derived with
    | @intro fileBody fileLast _ sequence fileEnds =>
        cases rest with
        | nil =>
            rw [whole, List.append_nil]
            exact .intro sequence fileEnds
        | cons next more =>
            -- The file would end in an empty token before the last one.
            have front := congrArg List.dropLast whole
            rw [List.dropLast_concat, List.dropLast_append_of_ne_nil (List.cons_ne_nil next more)]
              at front
            have inside : fileLast ∈ body := by simp [front]
            exact absurd (Token.is_endOfText_iff.mp fileEnds) (filled fileLast inside)
  · exact DerivesFile.recordsOf_eq

/-- The tokens of a record in which keywords stand as names, with its fieldmap first
and a comma behind its last buffered name. -/
def keywordTokens : List Token := [
  ⟨"record", ⟨1, 1⟩⟩, ⟨"record", ⟨1, 8⟩⟩, ⟨"\x7b", ⟨1, 15⟩⟩,
  ⟨"fieldmap", ⟨2, 1⟩⟩, ⟨"(", ⟨2, 10⟩⟩,
  ⟨"(", ⟨2, 11⟩⟩, ⟨"None", ⟨2, 12⟩⟩, ⟨",", ⟨2, 16⟩⟩, ⟨"string", ⟨2, 17⟩⟩, ⟨",", ⟨2, 23⟩⟩,
  ⟨"None", ⟨2, 24⟩⟩, ⟨")", ⟨2, 28⟩⟩, ⟨")", ⟨2, 29⟩⟩,
  ⟨"buffered", ⟨3, 1⟩⟩, ⟨"(", ⟨3, 9⟩⟩, ⟨"None", ⟨3, 10⟩⟩, ⟨",", ⟨3, 14⟩⟩, ⟨")", ⟨3, 15⟩⟩,
  ⟨";", ⟨3, 16⟩⟩,
  ⟨"struct", ⟨4, 1⟩⟩, ⟨"header", ⟨4, 8⟩⟩, ⟨";", ⟨4, 14⟩⟩, ⟨"\x7d", ⟨4, 15⟩⟩]

theorem derivesFile_keywordTokens :
    (∀ token ∈ keywordTokens, token.text ≠ "") ∧
    DerivesFile (keywordTokens ++ [⟨"", ⟨4, 16⟩⟩])
      [⟨"record", ⟨1, 1⟩, none, "header", [⟨"None", ⟨2, 12⟩, .string, none⟩],
        .ofList ["None"]⟩] :=
  ⟨by decide, (recordsOf_eq_ok_iff_derivesFile (by decide) _).mp rfl⟩

end Fieldmap.Spec
