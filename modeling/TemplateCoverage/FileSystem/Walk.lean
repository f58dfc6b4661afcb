import TemplateCoverage.FileSystem.Resolve

/-!
# Walking a tree

A walk visits what lies beneath a path, each directory before what it holds, the names of a
directory in order. A walk that follows links visits what they lead to in their place, and ends with
an error where a link leads to nothing or back to a directory that the walk is in.
-/

namespace TemplateCoverage

/-- Something that a walk meets. -/
structure Visit where
  /-- The path at which the walk meets it. -/
  path : String
  /-- The names that lead to it from where the walk began. -/
  names : Location
  /-- What stands there. A link is met only by a walk that does not follow links. -/
  entry : Entry

/-- Why a walk ends early. -/
inductive WalkError where
  | unreadable (path : String) (cause : FileError)
  | loop (path ancestor : String)
  deriving DecidableEq, Repr

/-- The wording of a walk error. -/
def WalkError.message : WalkError → String
  | .unreadable path cause => "IO error for operation on " ++ path ++ ": " ++ cause.message
  | .loop path ancestor =>
    "File system loop found: " ++ path ++ " points to an ancestor " ++ ancestor

/-- What a walk visits, and the error that ended it, if one did. -/
structure WalkResult where
  visits : List Visit := []
  error : Option WalkError := none

namespace WalkResult

/-- One result after another. What follows an error is not reached. -/
def append (r s : WalkResult) : WalkResult :=
  match r.error with
  | some _ => r
  | none => ⟨r.visits ++ s.visits, s.error⟩

/-- The visits up to the first error of a list of results. -/
def concat (results : List WalkResult) : WalkResult :=
  results.foldr append {}

end WalkResult

namespace FileSystem

/-- The place of a directory in a walk: where it is and how the walk got there. -/
structure Standing where
  location : Location
  path : String
  names : Location

/-- The visit of a name in a directory, and the place from which the walk goes on if the name leads
to a directory. The directories that the walk is in, `within`, are given with the innermost first.
-/
def meet (fs : FileSystem) (follow : Bool) (within : List Standing) (standing : Standing)
    (name : String) : Except WalkError (Visit × Option Standing) :=
  let path := Path.join standing.path name
  let names := standing.names ++ [name]
  let here := standing.location ++ [name]
  match fs.entry? here with
  | some (.link target) =>
    if follow then
      match fs.find .follow (pathOf here) with
      | .error cause => .error (.unreadable path cause)
      | .ok (location, .directory) =>
        match within.find? fun s => s.location = location with
        | some ancestor => .error (.loop path ancestor.path)
        | none => .ok (⟨path, names, .directory⟩, some ⟨location, path, names⟩)
      | .ok (_, entry) => .ok (⟨path, names, entry⟩, none)
    else .ok (⟨path, names, .link target⟩, none)
  | some (.file contents executable) => .ok (⟨path, names, .file contents executable⟩, none)
  | _ => .ok (⟨path, names, .directory⟩, some ⟨here, path, names⟩)

/-- Walk what a directory holds, at most `depth` directories deep. -/
def walkBelow (fs : FileSystem) (follow : Bool) : Nat → List Standing → Standing → WalkResult
  | 0, _, _ => {}
  | depth + 1, within, standing =>
    let inside := standing :: within
    WalkResult.concat <| (fs.names standing.location).map fun name =>
      match fs.meet follow inside standing name with
      | .error e => { error := some e }
      | .ok (visit, none) => { visits := [visit] }
      | .ok (visit, some next) =>
        WalkResult.append { visits := [visit] } (fs.walkBelow follow depth inside next)

/-- No walk gets deeper: a link that is followed never leads to a directory that the walk is in, and
between two links the locations grow. -/
def depthLimit (fs : FileSystem) : Nat :=
  (fs.entries.size + 2) * (fs.entries.size + 2)

/-- Walk what lies beneath a path. The path itself may be a link in any case. -/
def walkTree (fs : FileSystem) (follow : Bool) (root : String) : WalkResult :=
  match fs.find .follow root with
  | .error cause => { error := some (.unreadable root cause) }
  | .ok (location, .directory) => fs.walkBelow follow fs.depthLimit [] ⟨location, root, []⟩
  | .ok _ => {}

end FileSystem

end TemplateCoverage
