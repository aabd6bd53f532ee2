/-!
# Files

A `FileTree` is what a path can lead to: a file with its bytes, or a directory.  Commands see files
only through `Files`, a function from paths to what is found there, so they can be run on a tree
that is a plain value as well as on a disk.

Paths are text, and so are the names in a tree: names that are no Unicode text are left out.  A path
starts at the root if it begins with a slash, and at the working directory otherwise.  The parts
between slashes are followed one by one; an empty part and `.` stay where they are, `..` goes up
unless that is above the root, and each of them needs a directory to stand in.  A path and its parts
are limited in length, which counts in bytes.
-/

set_option autoImplicit false

namespace UnitCheck

/-- Why there is nothing to read at a path. -/
inductive FileError where
  | notFound
  | notDirectory
  | isDirectory
  | denied
  | nameTooLong
  | notName
  | notText
deriving DecidableEq, Inhabited

namespace FileError

/-- What the system says. -/
def message : FileError → String
  | .notFound => "No such file or directory (os error 2)"
  | .notDirectory => "Not a directory (os error 20)"
  | .isDirectory => "Is a directory (os error 21)"
  | .denied => "Permission denied (os error 13)"
  | .nameTooLong => "File name too long (os error 36)"
  | .notName => "file name contained an unexpected NUL byte"
  | .notText => "stream did not contain valid UTF-8"

end FileError

/-- A file or a directory with all that is in it. -/
inductive FileTree where
  | file (content : ByteArray)
  | dir (entries : List (String × FileTree))
deriving Inhabited

/-! ## Paths -/

namespace Path

/-- How many bytes a part of a path may have. -/
def maxPart : Nat := 255

/-- How many bytes a path may have. -/
def maxLength : Nat := 4095

/-- Cut a text at its slashes. -/
def splitChars : List Char → List Char × List (List Char)
  | [] => ([], [])
  | c :: rest =>
    let (first, more) := splitChars rest
    if c = '/' then ([], first :: more) else (c :: first, more)

/-- The parts of a path between its slashes. -/
def parts (path : String) : List String :=
  let (first, more) := splitChars path.toList
  (first :: more).map String.ofList

/-- The path of something below a directory, by the directory's path and the names to it. -/
def below (directory : String) (names : List String) : String :=
  directory ++ (if directory.toList.getLast? = some '/' then "" else "/") ++ "/".intercalate names

/-- The names that lead from the root to where a path starts. -/
def origin (workingDir : List String) (path : String) : List String :=
  if path.toList.head? = some '/' then [] else workingDir

/-- Whether a file name ends in `.json` and has something in front of that. -/
def isUnitName (name : String) : Bool :=
  match name.toList.reverse with
  | 'n' :: 'o' :: 's' :: 'j' :: '.' :: before => !before.isEmpty
  | _ => false

end Path

namespace FileTree

/-- Where one part of a path leads, and the directories above that. -/
def step (here : FileTree) (above : List FileTree) (part : String) :
    Except FileError (FileTree × List FileTree) :=
  match here with
  | .file _ => .error .notDirectory
  | .dir entries =>
    if part = "" ∨ part = "." then .ok (here, above)
    else if part = ".." then
      match above with
      | [] => .ok (here, [])
      | parent :: above => .ok (parent, above)
    else if Path.maxPart < part.utf8ByteSize then .error .nameTooLong
    else
      match entries.lookup part with
      | none => .error .notFound
      | some next => .ok (next, here :: above)

/-- Follow the parts of a path from a place in a tree, given the directories above it. -/
def follow (here : FileTree) (above : List FileTree) : List String → Except FileError FileTree
  | [] => .ok here
  | part :: rest =>
    match here.step above part with
    | .error e => .error e
    | .ok (next, above) => next.follow above rest

/-- What a path leads to in the tree of all files, where the given names lead from the root to the
working directory. -/
def look (root : FileTree) (workingDir : List String) (path : String) :
    Except FileError FileTree :=
  if path.toList.contains '\x00' then .error .notName
  else if Path.maxLength < path.utf8ByteSize then .error .nameTooLong
  else if path = "" then .error .notFound
  else root.follow [] (Path.origin workingDir path ++ Path.parts path)

mutual

/-- The names that lead to the files of a tree, for each file in turn. -/
def filePaths : FileTree → List (List String)
  | .file _ => [[]]
  | .dir entries => entryPaths entries

/-- The names that lead to the files below the entries of a directory. -/
def entryPaths : List (String × FileTree) → List (List String)
  | [] => []
  | (name, t) :: rest => t.filePaths.map (name :: ·) ++ entryPaths rest

end

/-- The names that lead to the units in a directory, in order; first names are compared first. -/
def unitPaths (entries : List (String × FileTree)) : List (List String) :=
  ((entryPaths entries).filter fun names =>
    (names.getLast?.map Path.isUnitName).getD false).mergeSort
    fun a b => (List.decidableLE a b).decide

end FileTree

/-! ## What commands see -/

/-- What is found at each path. -/
structure Files where
  look : String → Except FileError FileTree

namespace Files

/-- What has been found at some places, and nothing anywhere else. -/
def ofPlaces (places : List (String × Except FileError FileTree)) : Files :=
  ⟨fun path => (places.lookup path).getD (.error .notFound)⟩

/-- Whether a path leads to a regular file. -/
def isFile (files : Files) (path : String) : Bool :=
  match files.look path with
  | .ok (.file _) => true
  | _ => false

/-- The text of a file. -/
def readText (files : Files) (path : String) : Except FileError String :=
  match files.look path with
  | .error e => .error e
  | .ok (.dir _) => .error .isDirectory
  | .ok (.file content) =>
    match String.fromUTF8? content with
    | some text => .ok text
    | none => .error .notText

/-- The units that a path stands for: a directory for the units in it, anything else for itself.
What is in a directory at a path that is too long cannot be found there and is passed over. -/
def unitsOf (files : Files) (path : String) : List String :=
  match files.look path with
  | .ok (.dir entries) =>
    ((FileTree.unitPaths entries).map (Path.below path)).filter fun unit =>
      unit.utf8ByteSize ≤ Path.maxLength
  | _ => [path]

/-- The units that paths stand for. -/
def unitsAt (files : Files) (paths : List String) : List String := paths.flatMap files.unitsOf

end Files

end UnitCheck
