import TemplateCoverage.Json.Printer
import TemplateCoverage.Report.Basic

/-!
# The JSON report

The summary and the covered IDs, with the version of the tool and the time of the report.
-/

namespace TemplateCoverage.Report

/-- The version that reports name unless another one is given. -/
def toolVersion : String := "0.1.0"

/-- The summary block. -/
def summaryJson (s : Summary) : Json :=
  .object
    [("total_branches", .nat s.totalBranches),
     ("covered_branches", .nat s.coveredBranches),
     ("coverage_percent", .optional .double s.coveragePercent),
     ("file_branches_covered", .nat s.fileBranchesCovered),
     ("helper_branches_covered", .nat s.helperBranchesCovered)]

/-- The covered IDs by kind of file. -/
def coveredJson (r : Report) : Json :=
  .object
    [("files", .strings (r.coveredOfKind .template)),
     ("helpers", .strings (r.coveredOfKind .helper))]

/-- The report as a JSON value. -/
def document (r : Report) (timestamp : String) : Json :=
  .object
    [("version", .string toolVersion),
     ("chart", .string r.chart),
     ("timestamp", .string timestamp),
     ("summary", summaryJson r.summary),
     ("covered", r.coveredJson)]

/-- The report as JSON text. -/
def toJsonText (r : Report) (timestamp : String) : String :=
  (r.document timestamp).pretty

end TemplateCoverage.Report
