import Fieldmap.CommandLine.Files

/-!
# Directories

The simplest files are those of one flat directory by itself, a map from names to contents
with nothing known around it. A path leads to the directory, to an entry or to something
below an entry. A path that leaves the directory finds nothing on its way, and nothing is
written there. Names and paths are limited in their number of bytes.
-/

namespace Fieldmap.CommandLine

/-- The files of a flat directory, with their contents. -/
structure Directory where
  files : List (String × ByteArray)

/-- The most bytes that a name may have. -/
def longestName : Nat := 255

/-- The most bytes that a path may have. -/
def longestPath : Nat := 4095

/-- What a path leads to. -/
inductive Place where
  | directory
  /-- The entry of one name. -/
  | entry (name : String)
  /-- The entry of one name, which a slash behind the name asks to be a directory. -/
  | folder (name : String)
  /-- Something below the entry of one name. -/
  | below (name : String)
  deriving DecidableEq, Repr

/-- Where a path leads, seen from a directory by itself. -/
structure Route where
  /-- Whether the place is looked up in the directory itself. All that lies outside of it is
  one place without files. -/
  inside : Bool
  place : Place
  deriving DecidableEq, Repr

namespace Route

/-- The route along the parts of a path. Empty parts and single points stay where they
are, and a double point leads to the directory around. -/
def along (inside : Bool) : List (List Char) → Route
  | [] => ⟨inside, .directory⟩
  | part :: rest =>
      if part = [] || part = ['.'] then along inside rest
      else if part = ['.', '.'] then along false rest
      else if rest.isEmpty then ⟨inside, .entry (String.ofList part)⟩
      else if rest.all List.isEmpty then ⟨inside, .folder (String.ofList part)⟩
      else ⟨inside, .below (String.ofList part)⟩

/-- The route of a path. A path from the root leaves the directory, and so does an empty
one, which leads nowhere. -/
def ofPath (path : String) : Route :=
  match path.toList.splitOn '/' with
  | [[]] => ⟨false, .entry ""⟩
  | [] :: parts => along false parts
  | parts => along true parts

end Route

namespace Directory

/-- The directory without files. -/
def empty : Directory := ⟨[]⟩

/-- The content of an entry. -/
def find? (directory : Directory) (name : String) : Option ByteArray :=
  directory.files.lookup name

/-- The directory in which a route ends, as far as it is known. -/
def atEnd (directory : Directory) (route : Route) : Directory :=
  if route.inside then directory else empty

/-- What is wrong with a path that asks an entry to be a directory. -/
def belowFault (directory : Directory) (name : String) : FileFault :=
  if longestName < name.utf8ByteSize then .nameTooLong
  else if (directory.find? name).isSome then .notDirectory
  else .notFound

/-- The text in the file of one name. -/
def readEntry (directory : Directory) (name : String) : Except FileFault String :=
  if longestName < name.utf8ByteSize then .error .nameTooLong
  else
    match directory.find? name with
    | none => .error .notFound
    | some content => decode content

/-- The text in the file at a path. -/
def readText (directory : Directory) (path : String) : Except FileFault String :=
  let route := Route.ofPath path
  let target := directory.atEnd route
  if longestPath < path.utf8ByteSize then .error .nameTooLong
  else
    match route.place with
    | .directory => .error .isDirectory
    | .folder name | .below name => .error (target.belowFault name)
    | .entry name => target.readEntry name

/-- Give an entry a content, in its place if it exists. -/
def insert (directory : Directory) (name : String) (content : ByteArray) : Directory :=
  if (directory.find? name).isSome then
    ⟨directory.files.map fun file => if file.1 = name then (name, content) else file⟩
  else ⟨directory.files ++ [(name, content)]⟩

/-- The directory after a text has been written to the file at a path. No directory
is made for a path that asks for one. -/
def writeText (directory : Directory) (path text : String) : Except FileFault Directory :=
  let route := Route.ofPath path
  if longestPath < path.utf8ByteSize then .error .nameTooLong
  else
    match route.place with
    | .directory | .folder _ => .error .isDirectory
    | .below name => .error ((directory.atEnd route).belowFault name)
    | .entry name =>
        if longestName < name.utf8ByteSize then .error .nameTooLong
        else if route.inside then .ok (directory.insert name text.toUTF8)
        else .error .notFound

/-- The files that are new or changed since `before`. -/
def changedSince (directory before : Directory) : List (String × ByteArray) :=
  directory.files.filter fun file => before.find? file.1 != some file.2

end Directory

/-- A directory by itself. A write to it that fails leaves it as it was. -/
instance : Files Directory where
  readText := Directory.readText
  writeText directory path text :=
    match directory.writeText path text with
    | .error fault => (.error fault, directory)
    | .ok after => (.ok (), after)

end Fieldmap.CommandLine
