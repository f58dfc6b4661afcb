import TemplateCoverage.Report.Cobertura
import TemplateCoverage.Report.Text

/-!
# Report formats

The three formats with the choices that a user of the command line gets.
-/

namespace TemplateCoverage

/-- The format of a report. -/
inductive ReportFormat where
  | text
  | json
  | xml
  deriving DecidableEq, Repr

/-- The ending of the names of files in a format. -/
def ReportFormat.extension : ReportFormat → String
  | .text => "txt"
  | .json => "json"
  | .xml => "xml"

/-- The time of a report. -/
structure Clock where
  /-- The date and time as reports name it. -/
  date : String
  /-- The digits of the number of milliseconds. -/
  millis : String
  deriving DecidableEq, Repr

/-- The text of a report in a format. The runs are listed if there is more than one. -/
def Report.textIn (r : Report) (format : ReportFormat) (clock : Clock) (showUncovered : Bool)
    (source : Option String) : String :=
  match format with
  | .text => r.toText { uncovered := showUncovered, runs := 1 < r.runs.length }
  | .json => r.toJsonText clock.date ++ "\n"
  | .xml => r.toCobertura { source, timestamp := clock.millis }

end TemplateCoverage
