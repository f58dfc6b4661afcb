import TemplateCoverage.FileSystem.Resolve

/-!
# Paths inside a directory

Whether a path will lie in a directory once it is made. What exists of the path is resolved, and the
names that are missing are added to it.
-/

namespace TemplateCoverage.FileSystem

/-- The steps from the root to a location. -/
def stepsTo (location : Location) : List Path.Component :=
  .root :: location.map .name

/-- A path as it is from the root. -/
def absolute (fs : FileSystem) (path : String) : String :=
  if Path.isAbsolute path then path else Path.join (pathOf fs.workingDirectory) path

/-- The steps of a path, given with the last one first, of which the last ones are missing names.
The steps before them are resolved. -/
def resolveMissing (fs : FileSystem) : List Path.Component → Option (List Path.Component)
  | .name segment :: above =>
    match fs.canonical (Path.ofComponents above.reverse) with
    | .ok location => some (stepsTo location ++ [.name segment])
    | .error _ => (fs.resolveMissing above).map (· ++ [.name segment])
  | _ => none

/-- The steps that an absolute path stands for. A path that steps up behind a missing name is left
as it is. -/
def resolved (fs : FileSystem) (path : String) : List Path.Component :=
  match fs.canonical path with
  | .ok location => stepsTo location
  | .error _ =>
    let steps := Path.components path
    (fs.resolveMissing steps.reverse).getD steps

/-- Whether a path is the given existing directory or lies in it. -/
def isWithin (fs : FileSystem) (path directory : String) : Bool :=
  match fs.canonical directory with
  | .error _ => false
  | .ok location => (stepsTo location).isPrefixOf (fs.resolved (fs.absolute path))

/-- Whether anything is in a directory. -/
def isOccupied (fs : FileSystem) (directory : String) : Bool :=
  match fs.canonical directory with
  | .error _ => false
  | .ok location => !(fs.below location).isEmpty

end TemplateCoverage.FileSystem
