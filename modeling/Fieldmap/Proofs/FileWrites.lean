import Fieldmap.CommandLine.Directory

/-!
# Writes to files

What a write does is seen in the contents of files. A write that is complete gives one file
a new content, and one without effect gives none. This is what runs among any files rely on,
and a directory by itself has it: a write to it fails, or it gives the entry that its path
leads to a new content, and every other entry holds what it held before.
-/

namespace Fieldmap.CommandLine

/-- A view of the files in a state: what each of them holds, and which one a path leads to. -/
structure FileView (σ : Type) where
  File : Type
  content : σ → File → Option ByteArray
  file? : σ → String → Option File

namespace FileView

variable {σ : Type}

/-- The file at a path has been given a text, and no other file is new or changed. -/
def Receives (view : FileView σ) (before : σ) (path text : String) (after : σ) : Prop :=
  ∃ file, view.file? after path = some file ∧ view.content after file = some text.toUTF8 ∧
    ∀ other, other ≠ file → view.content after other = view.content before other

/-- A write at a path either fails without effect or is complete. -/
structure AtomicAt [Files σ] (view : FileView σ) (before : σ) (path : String) : Prop where
  withoutEffect : ∀ text fault after,
    Files.writeText before path text = (.error fault, after) → after = before
  complete : ∀ text after,
    Files.writeText before path text = (.ok (), after) → view.Receives before path text after

end FileView

/-! ## A directory by itself -/

/-- A text is what its own bytes spell. -/
theorem decode_toByteArray (text : String) : decode text.toByteArray = .ok text := by
  have spelled : String.fromUTF8? text.toByteArray = some text := by
    rw [String.fromUTF8?, dif_pos text.isValidUTF8]
    rfl
  rw [decode, spelled]

namespace Directory

/-- Of the files of one name only the contents are replaced. -/
theorem lookup_replace (files : List (String × ByteArray)) (name other : String)
    (content : ByteArray) :
    (files.map fun file => if file.1 = name then (name, content) else file).lookup other =
      if other = name then (files.lookup name).map fun _ => content else files.lookup other := by
  induction files with
  | nil => simp
  | cons file rest ih =>
      rcases file with ⟨fileName, held⟩
      rw [List.map_cons, List.lookup_cons, List.lookup_cons, ih]
      by_cases replaced : fileName = name
      · subst replaced
        by_cases asked : other = fileName
        · simp [asked]
        · have passed : (other == fileName) = false := by simpa using asked
          simp [asked, passed, List.lookup_cons]
      · have kept : (name == fileName) = false := by simpa using Ne.symm replaced
        by_cases asked : other = name <;> simp [replaced, kept, asked, List.lookup_cons]

/-- An entry that is given a content holds it, and every other one what it held. -/
theorem find?_insert (directory : Directory) (name other : String) (content : ByteArray) :
    (directory.insert name content).find? other =
      if other = name then some content else directory.find? other := by
  unfold insert
  split
  · rename_i present
    rcases Option.isSome_iff_exists.mp present with ⟨held, found⟩
    unfold find? at found ⊢
    rw [lookup_replace, found]
    rfl
  · rename_i absent
    rw [Option.not_isSome_iff_eq_none] at absent
    by_cases asked : other = name
    · subst asked
      unfold find? at absent ⊢
      simp [List.lookup_append, absent]
    · have different : (other == name) = false := by simpa using asked
      simp [find?, List.lookup_append, List.lookup_cons, different, asked]

/-- What a path needs for a write to it to succeed: it leads to an entry of the directory,
and neither the path nor the entry's name is too long. -/
structure Writable (path name : String) : Prop where
  route : Route.ofPath path = ⟨true, .entry name⟩
  path_le : path.utf8ByteSize ≤ longestPath
  name_le : name.utf8ByteSize ≤ longestName

/-- A write succeeds exactly at a writable path, and gives its entry the text. -/
theorem writeText_eq_ok_iff {before after : Directory} {path text : String} :
    before.writeText path text = .ok after ↔
      ∃ name, Writable path name ∧ after = before.insert name text.toUTF8 := by
  constructor
  · intro written
    unfold writeText at written
    rcases routed : Route.ofPath path with ⟨inside, place⟩
    rw [routed] at written
    split at written
    · cases written
    · rename_i pathFits
      cases place with
      | entry name =>
          simp only at written
          split at written
          · cases written
          · rename_i nameFits
            split at written
            · rename_i isInside
              cases written
              cases isInside
              exact ⟨name, ⟨routed, Nat.not_lt.mp pathFits, Nat.not_lt.mp nameFits⟩, rfl⟩
            · cases written
      | directory | folder | below => cases written
  · rintro ⟨name, writable, rfl⟩
    simp [writeText, writable.route, Nat.not_lt.mpr writable.path_le,
      Nat.not_lt.mpr writable.name_le]

/-- The text written is the text read at the same path. -/
theorem readText_of_writeText {before after : Directory} {path text : String}
    (written : before.writeText path text = .ok after) : after.readText path = .ok text := by
  rcases writeText_eq_ok_iff.mp written with ⟨name, writable, rfl⟩
  simp [readText, readEntry, writable.route, Nat.not_lt.mpr writable.path_le,
    Nat.not_lt.mpr writable.name_le, atEnd, find?_insert, decode_toByteArray]

/-- The entries of a directory, each under its name. -/
def view : FileView Directory where
  File := String
  content := find?
  file? _ path :=
    match Route.ofPath path with
    | ⟨true, .entry name⟩ => some name
    | _ => none

/-- Writes to a directory are atomic, wherever their paths lead. -/
theorem atomicAt_view (directory : Directory) (path : String) :
    view.AtomicAt directory path where
  withoutEffect := by
    intro text fault after written
    simp only [Files.writeText] at written
    split at written <;> cases written
    rfl
  complete := by
    intro text after written
    simp only [Files.writeText] at written
    split at written <;> cases written
    rename_i writes
    rcases writeText_eq_ok_iff.mp writes with ⟨name, writable, rfl⟩
    refine ⟨name, ?_, ?_, ?_⟩
    · simp only [view, writable.route]
    · simp [view, find?_insert]
    · intro other different
      exact (directory.find?_insert name other _).trans (if_neg different)

end Directory

end Fieldmap.CommandLine
