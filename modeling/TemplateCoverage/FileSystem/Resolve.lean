import TemplateCoverage.FileSystem.Basic
import TemplateCoverage.Text.Utf8

/-!
# Looking up paths

A path is followed segment by segment from the root or the working directory. Links on the way are
replaced by their targets; a link at the end is followed on request. At most forty links are
followed, so that links that lead to each other end the search. Names and paths that are too long
lead nowhere.
-/

namespace TemplateCoverage.FileSystem

/-- The number of links that a search follows. -/
def linkLimit : Nat := 40

/-- The number of bytes that a name may have. -/
def nameLimit : Nat := 255

/-- The number of bytes that a path may have. -/
def pathLimit : Nat := 4095

/-- What a search does at the last name of its path. -/
inductive LastStep where
  /-- A link is left as it is. -/
  | keep
  /-- A link is followed. -/
  | follow
  /-- A link is followed, and no slash may stand behind the name, as a file is to be put there. -/
  | fill
  deriving DecidableEq, Repr

/-- The segments that a search follows. A slash at the end asks for a directory, as an empty segment
does. -/
def searchSegments (path : String) : List String :=
  Path.segments path ++ if Path.endsWithSlash path then [""] else []

/-- Whether a path can be looked up at all. -/
def checkPath (path : String) : Except FileError Unit :=
  if path.toList.contains '\x00' then .error .unexpectedNul
  else if path.isEmpty then .error .notFound
  else if pathLimit < path.utf8ByteSize then .error .nameTooLong
  else .ok ()

/-- Follow segments from the directory `base`. The result is a location whose parent is a directory;
there need not be anything at the location itself. -/
def walk (fs : FileSystem) (last : LastStep) (links : Nat) (base : Location)
    (path : List String) : Except FileError Location :=
  match path with
  | [] => .ok base
  | name :: rest =>
    if name = "." ∨ name = "" then fs.walk last links base rest
    else if name = ".." then fs.walk last links base.dropLast rest
    else if last = .fill ∧ rest = [""] then .error .isADirectory
    else if nameLimit < name.utf8ByteSize then .error .nameTooLong
    else
      let here := base ++ [name]
      match fs.entry? here with
      | none => if rest.isEmpty then .ok here else .error .notFound
      | some .directory => fs.walk last links here rest
      | some (.file _ _) => if rest.isEmpty then .ok here else .error .notADirectory
      | some (.link target) =>
        if rest.isEmpty && last == .keep then .ok here
        else
          match links with
          | 0 => .error .tooManyLinks
          | links + 1 =>
            fs.walk last links (if Path.isAbsolute target then [] else base)
              (searchSegments target ++ rest)
termination_by (links, path.length)

/-- The directory from which a path is followed. -/
def start (fs : FileSystem) (path : String) : Location :=
  if Path.isAbsolute path then [] else fs.workingDirectory

/-- The location that a path leads to. -/
def locate (fs : FileSystem) (last : LastStep) (path : String) : Except FileError Location :=
  match checkPath path with
  | .error e => .error e
  | .ok () => fs.walk last linkLimit (fs.start path) (searchSegments path)

/-- The location of what exists at a path, and the entry there. -/
def find (fs : FileSystem) (last : LastStep) (path : String) :
    Except FileError (Location × Entry) :=
  match fs.locate last path with
  | .error e => .error e
  | .ok location =>
    match fs.entry? location with
    | none => .error .notFound
    | some entry => .ok (location, entry)

/-- What a path leads to, with links followed. -/
def status (fs : FileSystem) (path : String) : Except FileError Entry :=
  (fs.find .follow path).map (·.2)

/-- Whether a path leads to something. -/
def pathExists (fs : FileSystem) (path : String) : Bool :=
  (fs.status path).isOk

/-- Whether a path leads to a file. -/
def isFile (fs : FileSystem) (path : String) : Bool :=
  match fs.status path with
  | .ok (.file _ _) => true
  | _ => false

/-- Whether a path leads to a directory. -/
def isDirectory (fs : FileSystem) (path : String) : Bool :=
  match fs.status path with
  | .ok .directory => true
  | _ => false

/-- The path without links and without `.` and `..` that leads to the same place. Everything on the
way has to exist. -/
def canonical (fs : FileSystem) (path : String) : Except FileError Location :=
  (fs.find .follow path).map (·.1)

/-- The absolute path of a location. -/
def pathOf (location : Location) : String :=
  "/" ++ String.intercalate "/" location

/-- The bytes of a file. -/
def readBytes (fs : FileSystem) (path : String) : Except FileError ByteArray :=
  match fs.status path with
  | .error e => .error e
  | .ok (.file contents _) => .ok contents
  | .ok _ => .error .isADirectory

/-- The text of a file. -/
def readText (fs : FileSystem) (path : String) : Except FileError String :=
  match fs.readBytes path with
  | .error e => .error e
  | .ok bytes =>
    match Text.Utf8.decode? bytes with
    | none => .error .invalidText
    | some text => .ok text

end TemplateCoverage.FileSystem
