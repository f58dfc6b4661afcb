import TemplateCoverage.Decimal.Fixed
import TemplateCoverage.Error

/-!
# Errors of commands
-/

namespace TemplateCoverage.CommandLine

/-- What is wrong with an argument. -/
inductive InvalidArgument where
  | noValuesFiles (directory : String)
  | valuesNotFound (path : String)
  | outputInsideChart
  | outputNotEmpty (path : String)
  | outputNotADirectory (path : String)
  deriving DecidableEq, Repr

/-- The wording of what is wrong with an argument. -/
def InvalidArgument.message : InvalidArgument → String
  | .noValuesFiles directory => "no values files (*.yaml, *.yml) in " ++ directory
  | .valuesNotFound path => "values input not found: " ++ path
  | .outputInsideChart => "output directory must be outside the chart directory"
  | .outputNotEmpty path =>
    "output directory " ++ path ++ " is not empty (use --force to overwrite)"
  | .outputNotADirectory path => "output path " ++ path ++ " is not a directory"

/-- Why a command fails. -/
inductive CommandError where
  | coverage (cause : CoverageError)
  | file (cause : FileError)
  | argument (cause : InvalidArgument)
  /-- The report cannot be written. -/
  | report (path : String) (cause : FileError)
  | belowThreshold (actual threshold : Float)

/-- A percentage with two decimal places. -/
def percentText (x : Float) : String :=
  Decimal.fixed 2 x ++ "%"

/-- The wording of an error. -/
def CommandError.message : CommandError → String
  | .coverage cause => cause.message
  | .file cause => "I/O error: " ++ cause.message
  | .argument cause => "Invalid argument: " ++ cause.message
  | .report path cause => "Report generation failed: " ++ path ++ ": " ++ cause.message
  | .belowThreshold actual threshold =>
    "Coverage " ++ percentText actual ++ " is below the required " ++ percentText threshold

end TemplateCoverage.CommandLine
