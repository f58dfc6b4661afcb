import TemplateCoverage.Discovery

/-!
# Scratch copies

Instrumentation never touches the chart itself: a copy is staged in a new directory, and the
directory is removed when the work on it is over, whether the work ended well or not.
-/

namespace TemplateCoverage

/-- The directory in which scratch directories are made. -/
def scratchRoot : String := "/tmp"

/-- The name of the copy of the chart in its scratch directory. -/
def stagedName : String := "chart"

/-- A scratch directory. -/
structure Workspace where
  path : String
  deriving DecidableEq, Repr

namespace Workspace

/-- The root of the copy. -/
def chart (w : Workspace) : String :=
  Path.join w.path stagedName

/-- The path of the scratch directory with the given number. -/
def numbered (n : Nat) : String :=
  Path.join scratchRoot ("chartcov-" ++ toString n)

/-- The first path for a scratch directory where nothing stands yet. Among as many numbers as there
are files and one more, one is free. -/
def freshPath (fs : FileSystem) : String :=
  let isFree (n : Nat) : Bool := !(fs.find .keep (numbered n)).isOk
  numbered (((List.range (fs.entries.size + 1)).find? isFree).getD 0)

/-- Make a scratch directory. -/
def create : Activity CoverageError Workspace := do
  let path := freshPath (← Activity.files)
  Activity.write .scratch fun fs => fs.makeDirectory path
  pure ⟨path⟩

/-- Copy a chart into a scratch directory. -/
def stage (w : Workspace) (c : Chart) : Activity CoverageError Unit := do
  Activity.change .ofCopy fun fs => fs.copyTree c.root w.chart
  Activity.log
    { level := .debug, source := .workspace, message := "staged chart", fields := [("path", w.chart)] }

/-- Write a file of the copy. -/
def writeFile (w : Workspace) (relative text : String) : Activity CoverageError Unit :=
  writeBeneath w.chart relative text

/-- Remove a scratch directory. -/
def removed (w : Workspace) (fs : FileSystem) : FileSystem :=
  match fs.locate .keep w.path with
  | .ok location => fs.remove location
  | .error _ => fs

/-- Work on a staged copy of a chart, which is gone afterwards. -/
def use {α : Type} (c : Chart) (work : Workspace → Activity CoverageError α) :
    Activity CoverageError α := do
  let w ← create
  let body : Activity CoverageError α := do
    w.stage c
    work w
  ExceptT.mk do
    let result ← body.run
    modify fun world => { world with files := w.removed world.files }
    pure result

end Workspace

end TemplateCoverage
