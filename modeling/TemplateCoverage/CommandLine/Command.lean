import TemplateCoverage.CommandLine.Invocation
import TemplateCoverage.CommandLine.Values
import TemplateCoverage.FileSystem.Containment
import TemplateCoverage.Listing

/-!
# Carrying out commands

What each command does with its arguments, and what it tells while it does it.
-/

namespace TemplateCoverage.CommandLine

namespace Style

/-- The message of a kind, if it is told. -/
def message (s : Style) (kind : MessageKind) (text : String) : List Emission :=
  ((s.line? kind text).map .message).toList

/-- Tell something. -/
def tell (s : Style) (kind : MessageKind) (text : String) : Activity CommandError Unit :=
  Activity.emitAll (s.message kind text)

/-- A warning for each note. -/
def warnings (s : Style) (notes : List Note) : List Emission :=
  notes.flatMap fun n => s.message .warning (noteLine n.file n.line n.message)

/-- Tell the coverage in one line. -/
def tellSummary (s : Style) (summary : Summary) : Activity CommandError Unit :=
  if s.verbosity.isQuiet then pure ()
  else Activity.emit (.message (summaryLine summary (s.usesColor && s.escapes)))

/-- What is told of a step of a run. -/
def progress (s : Style) (chart : String) : RunEvent → List Emission
  | .instrumented branches runs notes =>
    s.warnings notes ++ s.message .info
      ("Instrumented " ++ chart ++ " (" ++ toString branches ++ " branches), rendering "
        ++ toString runs ++ " run(s)")
  | .started _ _ => []
  | .finished _ label covered =>
    if s.verbosity.isVerbose then
      s.message .info (label ++ ": " ++ toString covered ++ " branch(es) covered")
    else []

/-- Tell the steps of a run in place of making them known as such. -/
def retell (s : Style) (chart : String) (e : Emission) : List Emission :=
  match e.event? with
  | some event => s.progress chart event
  | none => [e]

end Style

/-- The number of runs that are announced, if they are. -/
def announcedRuns (emitted : List Emission) : Option Nat :=
  (emitted.filterMap Emission.event?).findSome? fun e =>
    match e with
    | .instrumented _ runs _ => some runs
    | _ => none

/-- The number of runs that came to their end. -/
def finishedRuns (emitted : List Emission) : Nat :=
  (emitted.filterMap Emission.event?).countP fun e =>
    match e with
    | .finished _ _ _ => true
    | _ => false

/-- Write a report to a file. Missing directories are made. -/
def writeReport (path text : String) : Activity CommandError Unit := do
  match Path.parent? path with
  | some parent => Activity.change .file fun fs => fs.createDirectories parent
  | none => pure ()
  Activity.write (.report path) fun fs => fs.writeText path text

/-- Hand over the report of a run. Without a file for it, it is the output. -/
def deliver (s : Style) (clock : Clock) (a : RunArguments) (root : String) (report : Report) :
    Activity CommandError Unit := do
  let text := report.textIn a.format clock a.showUncovered (some root)
  match a.output with
  | some path =>
    writeReport path text
    s.tell .success ("Report written to " ++ path)
    s.tellSummary report.summary
  | none =>
    Activity.emit (.output text)
    if a.format ≠ .text then s.tellSummary report.summary

/-- Render the values inputs and report the coverage. -/
def RunArguments.carryOut (a : RunArguments) (s : Style) (clock : Clock) :
    Activity CommandError Unit := do
  let inputs ← expandValues a.values
  let chart ← Activity.mapError .coverage (Chart.openAt a.chart)
  let engine : Engine :=
    { chart, config := { filters := a.filters, extraArgs := a.extraArgs }
      renderer := a.renderer.renderer }
  let (result, emitted) ← Activity.observe (engine.run inputs)
  Activity.emitAll (emitted.flatMap (s.retell chart.name))
  match result with
  | .error e =>
    s.tell .failure
      (abortLine (finishedRuns emitted) ((announcedRuns emitted).getD inputs.length))
    throw (.coverage e)
  | .ok report =>
    deliver s clock a chart.root report
    Activity.ofExcept (checkThreshold report.summary a.threshold)

/-- List the branches of a chart. -/
def ScanArguments.carryOut (a : ScanArguments) (s : Style) : Activity CommandError Unit := do
  let d ← Activity.mapError .coverage do
    let chart ← Chart.openAt a.chart
    chart.discover { filters := a.filters }
  Activity.emitAll (s.warnings d.notes)
  Activity.emit (.output (d.listing a.mode a.asJson))
  s.tell .info
    (toString d.branches.size ++ " branches in " ++ toString d.files.length ++ " files")

/-- Why a directory cannot take a copy of a chart, if it cannot. -/
def destinationFault? (fs : FileSystem) (root output : String) (force : Bool) :
    Option InvalidArgument :=
  if fs.isWithin output root then some .outputInsideChart
  else if force || !fs.pathExists output then none
  else if !fs.isDirectory output then some (.outputNotADirectory output)
  else if fs.isOccupied output then some (.outputNotEmpty output)
  else none

/-- Write an instrumented copy of a chart. -/
def InstrumentArguments.carryOut (a : InstrumentArguments) (s : Style) :
    Activity CommandError Unit := do
  let chart ← Activity.mapError .coverage (Chart.openAt a.chart)
  match destinationFault? (← Activity.files) chart.root a.output a.force with
  | some fault => throw (.argument fault)
  | none => pure ()
  let d ← Activity.mapError .coverage
    (chart.instrumentInto { filters := a.filters } a.output)
  Activity.emitAll (s.warnings d.notes)
  s.tell .success
    ("Instrumented " ++ toString d.branches.size ++ " branches in " ++ toString d.files.length
      ++ " files into " ++ a.output)

/-- Carry out a command. -/
def Command.carryOut (c : Command) (s : Style) (clock : Clock) : Activity CommandError Unit :=
  match c with
  | .run a => a.carryOut s clock
  | .scan a => a.carryOut s
  | .instrument a => a.carryOut s

end TemplateCoverage.CommandLine
