import TemplateCoverage.Activity
import TemplateCoverage.Branch.Index
import TemplateCoverage.Chart.Basic
import TemplateCoverage.Config
import TemplateCoverage.Scan.File

/-!
# Discovering the branches of a chart

The selected files of a chart are scanned in order, their arms get IDs, and their instrumented texts
are written into a copy of the chart or dropped.
-/

namespace TemplateCoverage

/-- What was discovered in a chart. -/
structure Discovery where
  branches : BranchIndex := .empty
  notes : List Note := []
  /-- The paths of the files that were scanned. -/
  files : List String := []

/-- What the log says of a chart that was loaded. -/
def Chart.record (c : Chart) : LogRecord :=
  { level := .debug, source := .chart, message := "loaded chart"
    fields := [("chart", c.name), ("files", toString c.files.length)] }

/-- What the log says of a finding. -/
def Finding.record (file : String) : Finding → LogRecord
  | .arm a =>
    { level := .debug, source := .scan, message := "branch"
      fields := [("file", file), ("line", toString a.tokenLine), ("start", toString a.startLine),
        ("end", toString a.endLine)] }
  | .note n =>
    { level := .debug, source := .scan, message := "scanner note"
      fields := [("file", n.file), ("line", toString n.line)], detail := some n.message }

/-- What the log says of an arm that got no branch. -/
def Allocator.Outcome.record? : Allocator.Outcome → Option LogRecord
  | .branch _ => none
  | .duplicate id =>
    some { level := .warn, source := .allocation, message := "duplicate branch id skipped"
           fields := [("id", id)] }

/-- What the log says of a branch that got no code. -/
def Piece.record? : Piece → Option LogRecord
  | .skipped b =>
    some { level := .warn, source := .injection
           message := "branch column outside its line, not injected", fields := [("id", b.id)] }
  | _ => none

/-- A file after its instrumentation. -/
structure InstrumentedFile where
  branches : List Branch
  notes : List Note
  text : String
  records : List LogRecord

/-- Instrument a file with the given source. -/
def instrumentFile (config : Config) (allocator : Allocator) (file : TemplateFile)
    (source : String) : InstrumentedFile × Allocator :=
  let findings := scan config.evaluators file.relative source
  let (outcomes, allocator) := allocator.assign file.relative file.kind (Finding.arms findings)
  let branches := outcomes.filterMap Allocator.Outcome.branch?
  ({ branches, notes := Finding.notes findings
     text := instrument config.wrapperKeys source file.kind branches
     records := findings.map (Finding.record file.relative)
       ++ outcomes.filterMap Allocator.Outcome.record?
       ++ (pieces source.toList branches).filterMap Piece.record? },
   allocator)

/-- Add a file to what was discovered. -/
def Discovery.add (d : Discovery) (path : String) (file : InstrumentedFile) : Discovery :=
  { branches := d.branches.extend file.branches, notes := d.notes ++ file.notes
    files := d.files ++ [path] }

/-- Write a file of a chart beneath a root. Missing directories are made. -/
def writeBeneath (root relative text : String) : Activity CoverageError Unit := do
  let target := Path.joinSegments root relative
  match Path.parent? target with
  | some parent => Activity.change .file fun fs => fs.createDirectories parent
  | none => pure ()
  Activity.write .file fun fs => fs.writeText target text

/-- Instrument files in order, and write them beneath the given root, if there is one. -/
def processFiles (config : Config) (destination : Option String) (allocator : Allocator)
    (d : Discovery) : List TemplateFile → Activity CoverageError Discovery
  | [] => pure d
  | file :: rest => do
    let fs ← Activity.files
    let source ← Activity.ofExcept ((fs.readText file.path).mapError .file)
    let (done, allocator) := instrumentFile config allocator file source
    Activity.emitAll (done.records.map .log)
    match destination with
    | some root => writeBeneath root file.relative done.text
    | none => pure ()
    Activity.log
      { level := .debug, source := .run, message := "instrumented"
        fields := [("file", file.relative), ("branches", toString done.branches.length)] }
    processFiles config destination allocator (d.add file.relative done) rest

namespace Chart

/-- Load a chart. -/
def openAt (root : String) : Activity CoverageError Chart := do
  let chart ← Activity.ofExcept (load (← Activity.files) root)
  Activity.log chart.record
  pure chart

/-- Instrument the selected files of a chart. -/
def process (c : Chart) (config : Config) (destination : Option String) :
    Activity CoverageError Discovery := do
  let d ← processFiles config destination {} {} (c.selectedFiles config.filters)
  Activity.log
    { level := .info, source := .run, message := "discovery complete"
      fields := [("branches", toString d.branches.size), ("files", toString d.files.length)] }
  pure d

/-- Discover the branches of a chart without writing anything. -/
def discover (c : Chart) (config : Config) : Activity CoverageError Discovery :=
  c.process config none

/-- Write an instrumented copy of a chart to a directory. -/
def instrumentInto (c : Chart) (config : Config) (destination : String) :
    Activity CoverageError Discovery := do
  Activity.change .ofCopy fun fs => fs.copyTree c.root destination
  c.process config (some destination)

end Chart

end TemplateCoverage
