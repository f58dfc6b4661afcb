import TemplateCoverage.Branch.Allocator
import TemplateCoverage.Branch.Index

/-!
# Coverage reports

A report holds the discovered branches of a chart, its runs, and the IDs that some run covered. It
grows by runs and by other reports; nothing is ever taken away from it.
-/

namespace TemplateCoverage

/-- The branches that one render covered. -/
structure Run where
  /-- The values input of the run. -/
  label : String
  covered : IdSet := ∅

/-- How good a coverage is. -/
inductive Status where
  | full
  | partially
  | low
  deriving DecidableEq, Repr

namespace Status

/-- The status of a percentage: full from a hundred on, partial from fifty on. What is not a number
is low. -/
def ofPercent (percent : Float) : Status :=
  if 100.0 ≤ percent then .full
  else if 50.0 ≤ percent then .partially
  else .low

end Status

/-- The numbers of a report. -/
structure Summary where
  totalBranches : Nat
  coveredBranches : Nat
  /-- Absent if nothing was discovered. -/
  coveragePercent : Option Float
  fileBranchesTotal : Nat
  fileBranchesCovered : Nat
  helperBranchesTotal : Nat
  helperBranchesCovered : Nat

namespace Summary

/-- The status of the percentage, if there is one. -/
def status (s : Summary) : Option Status :=
  s.coveragePercent.map Status.ofPercent

/-- The number of branches that no run covered. -/
def uncoveredBranches (s : Summary) : Nat :=
  s.totalBranches - s.coveredBranches

end Summary

/-- A coverage report. -/
structure Report where
  chart : String
  discovered : BranchIndex
  /-- The runs in the order of their execution. -/
  runs : List Run := []
  /-- The IDs that some run covered. -/
  covered : IdSet := ∅

namespace Report

instance : Inhabited Report := ⟨{ chart := "", discovered := .empty }⟩

/-- The report without runs. -/
def new (chart : String) (discovered : BranchIndex) : Report :=
  { chart, discovered }

/-- Add a run. IDs that were not discovered are left out of it. -/
def addRun (r : Report) (run : Run) : Report :=
  let kept := run.covered.filter r.discovered.contains
  { r with
    runs := r.runs ++ [{ run with covered := kept }]
    covered := r.covered.insertMany kept.toList }

/-- Add what another report discovered, then its runs in order. -/
def merge (r other : Report) : Report :=
  other.runs.foldl addRun { r with discovered := r.discovered.extend other.discovered.branches }

/-- Whether some run covered the ID. -/
def isCovered (r : Report) (id : BranchId) : Bool :=
  r.covered.contains id

/-- The covered IDs of files of one kind. -/
def coveredOfKind (r : Report) (kind : FileKind) : List BranchId :=
  r.covered.toList.filter fun id => (r.discovered.get? id).any fun b => b.kind = kind

/-- The branches that no run covered, in the order of their IDs. -/
def uncovered (r : Report) : List Branch :=
  r.discovered.branches.filter fun b => !r.isCovered b.id

/-- The covered share of the discovered branches in percent. -/
def coveragePercent (r : Report) : Option Float :=
  if r.discovered.isEmpty then none
  else some (r.covered.size.toFloat * 100.0 / r.discovered.size.toFloat)

/-- The numbers of the report. -/
def summary (r : Report) : Summary :=
  { totalBranches := r.discovered.size
    coveredBranches := r.covered.size
    coveragePercent := r.coveragePercent
    fileBranchesTotal := r.discovered.countKind .template
    fileBranchesCovered := (r.coveredOfKind .template).length
    helperBranchesTotal := r.discovered.countKind .helper
    helperBranchesCovered := (r.coveredOfKind .helper).length }

end Report

end TemplateCoverage
