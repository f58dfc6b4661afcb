import TemplateCoverage.Decimal.Binary
import TemplateCoverage.Report.Basic

/-!
# The text report

The totals, the percentage without its fraction, and the IDs of the covered branches. The uncovered
branches and the runs are listed on request. A chart without branches has no percentage, and then
nothing is listed.
-/

namespace TemplateCoverage.Report

/-- What the text report lists besides the covered branches. -/
structure TextOptions where
  uncovered : Bool := false
  runs : Bool := false

/-- The whole part of a percentage, which is taken to lie between zero and a hundred. -/
def truncatedPercent (percent : Float) : Nat :=
  match Decimal.isNegative percent, Decimal.magnitude percent with
  | _, .notANumber => 0
  | true, _ => 0
  | false, .infinite => 100
  | false, .finite mantissa exponent =>
    let (num, den) := Decimal.scaledByTwo mantissa exponent
    min 100 (num / den)

/-- The word for a status. -/
def statusWord : Status → String
  | .full => "complete"
  | .partially => "partial"
  | .low => "low"

/-- A line of text. -/
def line (text : String) : String :=
  text ++ "\n"

/-- A share of a total. -/
def share (covered total : Nat) : String :=
  toString covered ++ "/" ++ toString total

/-- IDs below each other. -/
def idLines (ids : List BranchId) : String :=
  String.join (ids.map fun id => line ("  " ++ id))

/-- The section of the covered branches of files of one kind. -/
def coveredSection (r : Report) (kind : FileKind) (title : String) : String :=
  let ids := r.coveredOfKind kind
  "\n" ++ line (title ++ ":") ++ if ids.isEmpty then line "  (none)" else idLines ids

/-- The section of the branches that no run covered. -/
def uncoveredSection (r : Report) : String :=
  "\n" ++ line ("Uncovered branches (" ++ toString r.uncovered.length ++ "):")
    ++ idLines (r.uncovered.map (·.id))

/-- The section of the runs, if there are any. -/
def runsSection (r : Report) : String :=
  if r.runs.isEmpty then ""
  else
    "\n" ++ line "Runs:" ++ String.join (r.runs.map fun run =>
      line ("  " ++ run.label ++ ": " ++ toString run.covered.size ++ " covered"))

/-- The totals and the percentage. -/
def totals (s : Summary) (percent : Float) : String :=
  line ("Total branches:    " ++ toString s.totalBranches)
    ++ line ("Covered branches:  " ++ toString s.coveredBranches)
    ++ line ("  file branches:   " ++ share s.fileBranchesCovered s.fileBranchesTotal)
    ++ line ("  helper branches: " ++ share s.helperBranchesCovered s.helperBranchesTotal)
    ++ line ("Coverage: " ++ toString (truncatedPercent percent) ++ "% ("
        ++ statusWord (Status.ofPercent percent) ++ ")")

/-- The report as text. -/
def toText (r : Report) (options : TextOptions) : String :=
  line ("Chart: " ++ r.chart) ++
    match r.coveragePercent with
    | none => line "No branches found"
    | some percent =>
      totals r.summary percent
        ++ r.coveredSection .template "Covered file branches"
        ++ r.coveredSection .helper "Covered helper branches"
        ++ (if options.uncovered then r.uncoveredSection else "")
        ++ (if options.runs then r.runsSection else "")

end TemplateCoverage.Report
