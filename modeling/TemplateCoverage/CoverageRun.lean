import TemplateCoverage.Renderer.Basic
import TemplateCoverage.Session
import TemplateCoverage.Workspace

/-!
# Coverage runs

The instrumented chart is rendered once for each values input, one after another. The trace of a
render becomes a run of the report. The first render that fails ends everything, and the runs before
it are dropped.
-/

namespace TemplateCoverage

/-- The label of a run without values. -/
def noValuesLabel : String := "<none>"

/-- A values input: the path of a document, or no values. -/
structure ValuesInput where
  path : Option String
  deriving DecidableEq, Repr

/-- The label of the run of an input. -/
def ValuesInput.label (i : ValuesInput) : String :=
  i.path.getD noValuesLabel

/-- What the computation of a coverage report needs. -/
structure Engine where
  chart : Chart
  config : Config
  renderer : Renderer

/-- The trace in the answer of a renderer, if the render succeeded. -/
def RenderOutput.trace (o : RenderOutput) (label : String) : Except CoverageError Trace :=
  if o.succeeded then (Trace.parse o.stdout).mapError .invalidTrace
  else .error (.renderFailed label o.status o.diagnostic)

/-- What the log says of a trace. -/
def Trace.record (t : Trace) (rendered : String) : LogRecord :=
  { level := .debug, source := .trace, message := "parsed render trace"
    fields := [("sentinels", toString (sentinelCount rendered)), ("executed", toString t.size)] }

/-- What the log says of the reported IDs that were not discovered. -/
def Session.unknownRecords (s : Session) (t : Trace) : List LogRecord :=
  (t.all.filter fun id => !s.discovered.contains id).map fun id =>
    { level := .warn, source := .session, message := "trace reports an unknown branch id"
      fields := [("id", id)] }

/-- What is made known when the trace of a run has been recorded. -/
def recordEmissions (s : Session) (index : Nat) (label rendered : String) (t : Trace) :
    List Emission :=
  let (after, added) := (s.beginRun label).record t
  let complete : LogRecord :=
    { level := .info, source := .session, message := "run complete"
      fields := [("run", label), ("covered", toString after.currentCovered.size)] }
  .log (t.record rendered) :: (s.unknownRecords t).map .log
    ++ [.log complete, .event (.finished index label added)]

/-- Render the inputs, of which the first has the given number, and record their traces. The result
has the files as the renders have left them. -/
def renderInputs (renderer : Renderer) (chart : String) (extraArgs : List String) (index : Nat)
    (fs : FileSystem) (s : Session) :
    List ValuesInput → List Emission × Except CoverageError Session × FileSystem
  | [] => ([], .ok s, fs)
  | input :: rest =>
    let label := input.label
    let request : RenderRequest := { chart, values := input.path, extraArgs }
    let begun : List Emission :=
      [.event (.started index label),
       .log { level := .info, source := .run, message := "rendering", fields := [("run", label)] }]
      ++ (renderer.announce request).map .log
    match renderer.render fs index request with
    | (.error e, after) => (begun, .error e, after)
    | (.ok output, after) =>
      match output.trace label with
      | .error e => (begun, .error e, after)
      | .ok t =>
        let next := ((s.beginRun label).record t).1.endRun
        let (emitted, result, last) :=
          renderInputs renderer chart extraArgs (index + 1) after next rest
        (begun ++ recordEmissions s index label output.stdout t ++ emitted, result, last)

namespace Engine

/-- The inputs that are rendered: no input at all stands for one without values. -/
def inputsOf (inputs : List ValuesInput) : List ValuesInput :=
  if inputs.isEmpty then [⟨none⟩] else inputs

/-- Instrument the staged copy of the chart. -/
def prepare (e : Engine) (w : Workspace) : Activity CoverageError Discovery :=
  e.chart.process e.config (some w.chart)

/-- Render the inputs on a staged copy and report the coverage. -/
def runIn (e : Engine) (inputs : List ValuesInput) (w : Workspace) :
    Activity CoverageError Report := do
  let inputs := inputsOf inputs
  let d ← e.prepare w
  Activity.emit (.event (.instrumented d.branches.size inputs.length d.notes))
  let session := (Session.new d.branches).beginSession e.chart.name
  let (emitted, result, after) :=
    renderInputs e.renderer w.chart e.config.extraArgs 0 (← Activity.files) session inputs
  Activity.setFiles after
  Activity.emitAll emitted
  let last ← Activity.ofExcept result
  pure last.endSession.1

/-- Render the inputs and report the coverage. -/
def run (e : Engine) (inputs : List ValuesInput) : Activity CoverageError Report :=
  Workspace.use e.chart (e.runIn inputs)

end Engine

end TemplateCoverage
