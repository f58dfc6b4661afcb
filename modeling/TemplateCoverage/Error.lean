import TemplateCoverage.FileSystem.Copy
import TemplateCoverage.Trace

/-!
# Errors of a coverage computation
-/

namespace TemplateCoverage

/-- Why a manifest cannot be used. -/
inductive ManifestError where
  | malformed
  | notAMapping
  deriving DecidableEq, Repr

/-- The wording of a manifest error. What is wrong with malformed text is not told. -/
def ManifestError.message : ManifestError → String
  | .malformed => "<yaml>"
  | .notAMapping => "manifest is not a mapping"

/-- Why a chart has no coverage report. -/
inductive CoverageError where
  | manifestMissing (path : String)
  | templatesMissing (path : String)
  | invalidManifest (path : String) (cause : ManifestError)
  /-- A render of the values input `label` did not succeed. -/
  | renderFailed (label status diagnostic : String)
  /-- The renderer could not be run at all. -/
  | rendererUnavailable (program reason : String)
  | invalidTrace (cause : TraceError)
  /-- There is no directory for the scratch copy of the chart. -/
  | scratch (cause : FileError)
  /-- The tree of the chart cannot be walked. -/
  | walk (cause : WalkError)
  | file (cause : FileError)
  deriving DecidableEq, Repr

/-- The wording of an error. -/
def CoverageError.message : CoverageError → String
  | .manifestMissing path => "Chart manifest not found: " ++ path
  | .templatesMissing path => "Templates directory not found: " ++ path
  | .invalidManifest path cause => "Invalid chart manifest " ++ path ++ ": " ++ cause.message
  | .renderFailed label status diagnostic =>
    "Render failed for " ++ label ++ " (status " ++ status ++ "):\n" ++ diagnostic
  | .rendererUnavailable program reason =>
    "Failed to launch renderer \x60" ++ program ++ "\x60: " ++ reason
  | .invalidTrace cause =>
    "Invalid coverage trace on line " ++ toString cause.line ++ ": " ++ cause.cause.message
  | .scratch cause => "Workspace error: creating scratch directory: " ++ cause.message
  | .walk cause => "Workspace error: copying chart: " ++ cause.message
  | .file cause => "I/O error: " ++ cause.message

/-- The error of a copy that failed. -/
def CoverageError.ofCopy : CopyError → CoverageError
  | .file cause => .file cause
  | .walk cause => .walk cause

end TemplateCoverage
