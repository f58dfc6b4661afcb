import TemplateCoverage.FileSystem.Walk
import TemplateCoverage.FileSystem.Write

/-!
# Copying a tree

A tree is copied in the order of a walk that follows links. The copy is not a transaction: what was
copied before a failure stays.
-/

namespace TemplateCoverage

/-- Why a tree cannot be copied. -/
inductive CopyError where
  | file (cause : FileError)
  | walk (cause : WalkError)
  deriving DecidableEq, Repr

namespace FileSystem

/-- Copy what a walk has met to its place beneath a directory. -/
def copyVisit (fs : FileSystem) (target : String) (visit : Visit) :
    Except FileError Unit × FileSystem :=
  let place := visit.names.foldl Path.join target
  match visit.entry with
  | .directory => fs.createDirectories place
  | _ => fs.copyFile visit.path place

/-- Copy visits in order up to the first failure. -/
def copyVisits (fs : FileSystem) (target : String) : List Visit → Except FileError Unit × FileSystem
  | [] => (.ok (), fs)
  | visit :: rest =>
    match fs.copyVisit target visit with
    | (.error e, after) => (.error e, after)
    | (.ok (), after) => after.copyVisits target rest

/-- Copy the tree at `source` to the directory `target`, which is made if it is missing. Links are
followed, so the copy holds none. What was copied before a failure stays. -/
def copyTree (fs : FileSystem) (source target : String) : Except CopyError Unit × FileSystem :=
  match fs.createDirectories target with
  | (.error e, after) => (.error (.file e), after)
  | (.ok (), after) =>
    let found := after.walkTree true source
    match after.copyVisits target found.visits, found.error with
    | (.error e, copied), _ => (.error (.file e), copied)
    | (.ok (), copied), some e => (.error (.walk e), copied)
    | (.ok (), copied), none => (.ok (), copied)

end FileSystem

end TemplateCoverage
