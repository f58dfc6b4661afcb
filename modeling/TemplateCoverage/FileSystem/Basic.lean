import Std.Data.ExtTreeMap
import TemplateCoverage.FileSystem.Path

/-!
# File systems

A file system is a finite map from locations to files, directories and symbolic links, with a
working directory. A location is the list of the names that lead to it from the root. Every function
of this library that looks at files or changes them works on such a value.
-/

namespace TemplateCoverage

/-- The names that lead from the root to an entry. -/
abbrev Location := List String

/-- What stands at a location. -/
inductive Entry where
  | file (contents : ByteArray) (executable : Bool)
  | link (target : String)
  | directory

/-- Whether two entries are alike in all that a file system keeps of them. -/
def Entry.isSame : Entry → Entry → Bool
  | .file contents executable, .file others runs =>
    contents.data == others.data && executable == runs
  | .link target, .link other => target == other
  | .directory, .directory => true
  | _, _ => false

/-- Why an operation on files fails. -/
inductive FileError where
  | notFound
  | permissionDenied
  | alreadyExists
  | notADirectory
  | isADirectory
  | nameTooLong
  | tooManyLinks
  | unexpectedNul
  | notExecutable
  | invalidText
  deriving DecidableEq, Repr

/-- What a failure is called. -/
def FileError.cause : FileError → String
  | .notFound => "No such file or directory"
  | .permissionDenied => "Permission denied"
  | .alreadyExists => "File exists"
  | .notADirectory => "Not a directory"
  | .isADirectory => "Is a directory"
  | .nameTooLong => "File name too long"
  | .tooManyLinks => "Too many levels of symbolic links"
  | .unexpectedNul => "file name contained an unexpected NUL byte"
  | .notExecutable => "Exec format error"
  | .invalidText => "stream did not contain valid UTF-8"

/-- The number of a failure. Those that the file system does not report have none. -/
def FileError.number? : FileError → Option Nat
  | .notFound => some 2
  | .notExecutable => some 8
  | .permissionDenied => some 13
  | .alreadyExists => some 17
  | .notADirectory => some 20
  | .isADirectory => some 21
  | .nameTooLong => some 36
  | .tooManyLinks => some 40
  | .unexpectedNul | .invalidText => none

/-- The wording of a failure. -/
def FileError.message (e : FileError) : String :=
  match e.number? with
  | some n => e.cause ++ " (os error " ++ toString n ++ ")"
  | none => e.cause

/-- A file system with a working directory. -/
structure FileSystem where
  entries : Std.ExtTreeMap Location Entry := ∅
  workingDirectory : Location := []

namespace FileSystem

instance : Inhabited FileSystem := ⟨{}⟩

/-- What stands at a location. The root is a directory. -/
def entry? (fs : FileSystem) (location : Location) : Option Entry :=
  if location = [] then some .directory else fs.entries[location]?

/-- The file system with the given entry at a location. -/
def put (fs : FileSystem) (location : Location) (entry : Entry) : FileSystem :=
  { fs with entries := fs.entries.insert location entry }

/-- Whether a location lies beneath another one. -/
def beneath (base location : Location) : Bool :=
  base.isPrefixOf location && base.length < location.length

/-- The entries beneath a location, with the names that lead to them from there. A directory comes
before what it holds. -/
def below (fs : FileSystem) (base : Location) : List (Location × Entry) :=
  (fs.entries.toList.filter fun e => beneath base e.1).map fun (location, entry) =>
    (location.drop base.length, entry)

/-- The names in a directory, in order. -/
def names (fs : FileSystem) (base : Location) : List String :=
  (fs.below base).filterMap fun (relative, _) =>
    match relative with
    | [name] => some name
    | _ => none

/-- The file system without the entry at a location and all that lies beneath it. -/
def remove (fs : FileSystem) (base : Location) : FileSystem :=
  { fs with entries := fs.entries.filter fun location _ => !base.isPrefixOf location }

end FileSystem

end TemplateCoverage
