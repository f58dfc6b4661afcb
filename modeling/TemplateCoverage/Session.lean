import TemplateCoverage.Report.Basic
import TemplateCoverage.Trace

/-!
# Sessions

A session collects runs against a fixed index of branches. At most one report and one run are open;
whatever arrives in another order than begin, record, end is tolerated.
-/

namespace TemplateCoverage

/-- The state of a collection of coverage. -/
structure Session where
  discovered : BranchIndex
  report : Option Report := none
  run : Option Run := none

namespace Session

/-- A session over the discovered branches, with nothing open. -/
def new (discovered : BranchIndex) : Session :=
  { discovered }

/-- Begin a report. An open report or run is dropped. -/
def beginSession (s : Session) (chart : String) : Session :=
  { s with report := some (Report.new chart s.discovered), run := none }

/-- Begin a run. An open run is dropped. -/
def beginRun (s : Session) (label : String) : Session :=
  { s with run := some { label } }

/-- Whether the open run gains the ID. -/
def gains (s : Session) (run : Run) (id : BranchId) : Bool :=
  s.discovered.contains id && !run.covered.contains id

/-- Record an ID in a run: the run after it, and the number of IDs gained. -/
def recordId (s : Session) (state : Run × Nat) (id : BranchId) : Run × Nat :=
  if s.gains state.1 id then
    ({ state.1 with covered := state.1.covered.insert id }, state.2 + 1)
  else state

/-- Record a trace in the open run. IDs that were not discovered are left out. The result counts the
IDs that the run did not have before. Without an open run, nothing is recorded. -/
def record (s : Session) (t : Trace) : Session × Nat :=
  match s.run with
  | none => (s, 0)
  | some run =>
    let (run, added) := t.all.foldl s.recordId (run, 0)
    ({ s with run := some run }, added)

/-- End the open run: it becomes part of the open report, if there is one. -/
def endRun (s : Session) : Session :=
  match s.run with
  | none => s
  | some run => { s with run := none, report := s.report.map (·.addRun run) }

/-- End the open run and the open report. Without an open report, the result is an empty one. -/
def endSession (s : Session) : Report × Session :=
  let s := s.endRun
  (s.report.getD (Report.new "" s.discovered), { s with report := none })

/-- Drop what is open. -/
def abort (s : Session) : Session :=
  { s with report := none, run := none }

/-- The IDs that the open run has covered so far. -/
def currentCovered (s : Session) : IdSet :=
  match s.run with
  | none => ∅
  | some run => run.covered

/-- Whether a report is open. -/
def hasReport (s : Session) : Bool :=
  s.report.isSome

/-- Whether a run is open. -/
def hasRun (s : Session) : Bool :=
  s.run.isSome

end Session

end TemplateCoverage
