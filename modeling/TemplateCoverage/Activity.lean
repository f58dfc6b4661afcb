import TemplateCoverage.FileSystem.Write
import TemplateCoverage.Log
import TemplateCoverage.Scan.Basic

/-!
# Activities

An activity works on files and makes things known while it goes on: records for the log, the steps
of a coverage run, lines for the user, and output. What it has done before an error stays done.
-/

namespace TemplateCoverage

/-- A step of a coverage run. The runs are counted from zero. -/
inductive RunEvent where
  /-- The chart is instrumented, and the renders are about to begin. -/
  | instrumented (branches runs : Nat) (notes : List Note)
  | started (index : Nat) (label : String)
  /-- A render has been recorded. It covered the given number of branches. -/
  | finished (index : Nat) (label : String) (covered : Nat)
  deriving DecidableEq, Repr

/-- What an activity makes known. -/
inductive Emission where
  | log (record : LogRecord)
  | event (e : RunEvent)
  | message (line : String)
  | output (text : String)
  deriving DecidableEq, Repr

namespace Emission

/-- The step of a run that is made known. -/
def event? : Emission → Option RunEvent
  | .event e => some e
  | _ => none

/-- The output that is made known. -/
def output? : Emission → Option String
  | .output text => some text
  | _ => none

end Emission

/-- What an activity works on. -/
structure World where
  files : FileSystem
  /-- What was made known, in order. -/
  emitted : Array Emission := #[]

/-- An activity that may end with an error of type `ε`. -/
abbrev Activity (ε α : Type) := ExceptT ε (StateM World) α

namespace Activity

/-- The files as they are. -/
def files {ε : Type} : Activity ε FileSystem := do
  return (← get).files

/-- Replace the files. -/
def setFiles {ε : Type} (fs : FileSystem) : Activity ε Unit :=
  modify fun w => { w with files := fs }

/-- Make something known. -/
def emit {ε : Type} (e : Emission) : Activity ε Unit :=
  modify fun w => { w with emitted := w.emitted.push e }

/-- Make a list of things known. -/
def emitAll {ε : Type} (es : List Emission) : Activity ε Unit :=
  modify fun w => { w with emitted := w.emitted ++ es.toArray }

/-- Add a record to the log. -/
def log {ε : Type} (record : LogRecord) : Activity ε Unit :=
  emit (.log record)

/-- End with a result. -/
def ofExcept {ε α : Type} (result : Except ε α) : Activity ε α :=
  ExceptT.mk (pure result)

/-- Change the files by an operation that can fail. What it has changed before that is kept. -/
def change {ε δ : Type} (wrap : δ → ε) (operation : FileSystem → Except δ Unit × FileSystem) :
    Activity ε Unit := do
  let (result, after) := operation (← files)
  setFiles after
  ofExcept (result.mapError wrap)

/-- Change the files by an operation that does nothing if it fails. -/
def write {ε : Type} (wrap : FileError → ε) (operation : FileSystem → Except FileError FileSystem) :
    Activity ε Unit := do
  match operation (← files) with
  | .ok after => setFiles after
  | .error e => ofExcept (.error (wrap e))

/-- Carry out an activity with what it makes known held back. The result has its result, even if
that is an error, and what it made known. -/
def observe {ε δ α : Type} (activity : Activity ε α) :
    Activity δ (Except ε α × List Emission) := do
  let before ← get
  let (result, after) := activity.run.run { before with emitted := #[] }
  set { after with emitted := before.emitted }
  pure (result, after.emitted.toList)

/-- Let the errors of an activity be of another type. -/
def mapError {ε δ α : Type} (f : ε → δ) (activity : Activity ε α) : Activity δ α :=
  ExceptT.mk (Except.mapError f <$> activity.run)

end Activity

end TemplateCoverage
