import TemplateCoverage.Branch.Basic
import TemplateCoverage.CommandLine.Message
import TemplateCoverage.CommandLine.Parameter
import TemplateCoverage.Decimal.Reader
import TemplateCoverage.Renderer.Program
import TemplateCoverage.Report.Format

/-!
# Invocations

The commands of the program with their arguments. `Invocation.parse` reads them from the words of a
command line. The options that all commands share stand before or behind the name of the command;
those behind it count more.
-/

namespace TemplateCoverage.CommandLine

/-- The options that all commands share, as far as they are given. -/
structure SharedOptions where
  /-- How often it was asked for more messages. -/
  verbose : Option Nat := none
  quiet : Bool := false
  color : Option ColorChoice := none
  deriving DecidableEq, Repr

/-- The options with others for what they leave open. -/
def SharedOptions.orElse (a b : SharedOptions) : SharedOptions :=
  { verbose := a.verbose.or b.verbose, quiet := a.quiet || b.quiet, color := a.color.or b.color }

/-- The arguments for a coverage run. -/
structure RunArguments where
  chart : String := ""
  values : List String := []
  filters : List String := []
  format : ReportFormat := .text
  /-- The file for the report. Without one, the report is the output. -/
  output : Option String := none
  renderer : Program := {}
  showUncovered : Bool := false
  /-- The percentage below which the run is a failure. -/
  threshold : Option Float := none
  extraArgs : List String := []

/-- The arguments for a listing of the branches. -/
structure ScanArguments where
  chart : String := ""
  filters : List String := []
  mode : AddressMode := .point
  asJson : Bool := false

/-- The arguments for an instrumented copy of a chart. -/
structure InstrumentArguments where
  chart : String := ""
  output : String := ""
  filters : List String := []
  /-- Whether the copy may be written among other files. -/
  force : Bool := false

/-- A command with its arguments. -/
inductive Command where
  | run (a : RunArguments)
  | scan (a : ScanArguments)
  | instrument (a : InstrumentArguments)

/-- What the words of a command line ask for. -/
structure Invocation where
  /-- How often it was asked for more messages, at most 255 times. -/
  verbose : Nat
  quiet : Bool
  color : ColorChoice
  command : Command

/-- How much is told. Being quiet goes before all else. -/
def Invocation.verbosity (i : Invocation) : Verbosity :=
  if i.quiet then .quiet
  else
    match i.verbose with
    | 0 => .normal
    | 1 => .verbose
    | _ => .debug

/-! ### Values -/

/-- A path, which must not be empty. -/
def pathValue {σ : Type} (put : String → σ → σ) (text : String) (s : σ) : Except UsageError σ :=
  if text.isEmpty then .error .invalidValue else .ok (put text s)

/-- Any text. -/
def textValue {σ : Type} (put : String → σ → σ) (text : String) (s : σ) : Except UsageError σ :=
  .ok (put text s)

/-- One of several words. -/
def choiceValue {σ α : Type} (choices : List (String × α)) (put : α → σ → σ) (text : String)
    (s : σ) : Except UsageError σ :=
  match choices.lookup text with
  | none => .error .invalidValue
  | some a => .ok (put a s)

/-- A number. -/
def numberValue {σ : Type} (put : Float → σ → σ) (text : String) (s : σ) : Except UsageError σ :=
  match Decimal.readFloat? text with
  | none => .error .malformedNumber
  | some x => .ok (put x s)

/-- What is set by being there. -/
def presence {σ : Type} (put : σ → σ) (_ : String) (s : σ) : Except UsageError σ :=
  .ok (put s)

/-! ### Parameters -/

/-- The options that ask for help and for the version. -/
def informative (σ : Type) (title : String) : List (Parameter σ) :=
  [{ name := "help", letter := some 'h', arity := .counted
     store := fun _ _ => .error .helpAsked },
   { name := "version", letter := some 'V', arity := .counted
     store := fun _ _ => .error (.versionAsked title) }]

/-- The options that all commands share. -/
def sharedParameters : List (Parameter SharedOptions) :=
  [{ name := "verbose", letter := some 'v', arity := .counted
     store := presence fun s => { s with verbose := some (min 255 (s.verbose.getD 0 + 1)) } },
   { name := "quiet", letter := some 'q', arity := .flag
     store := presence fun s => { s with quiet := true } },
   { name := "color", arity := .single
     store := choiceValue [("auto", .auto), ("always", .always), ("never", .never)]
       fun c s => { s with color := some c } }]

/-- The options of a coverage run. -/
def runParameters : List (Parameter RunArguments) :=
  [{ name := "values", letter := some 'f', arity := .repeated
     store := pathValue fun path a => { a with values := a.values ++ [path] } },
   { name := "filter", arity := .repeated
     store := textValue fun text a => { a with filters := a.filters ++ [text] } },
   { name := "format", arity := .single
     store := choiceValue [("text", .text), ("json", .json), ("xml", .xml)]
       fun format a => { a with format } },
   { name := "output", letter := some 'o', arity := .single
     store := pathValue fun path a => { a with output := some path } },
   { name := "helm", arity := .single, environmentName := some "CHARTCOV_HELM"
     store := pathValue fun path a => { a with renderer := ⟨path⟩ } },
   { name := "show-uncovered", arity := .flag
     store := presence fun a => { a with showUncovered := true } },
   { name := "fail-under", arity := .single
     store := numberValue fun x a => { a with threshold := some x } }]

/-- The options of a listing. -/
def scanParameters : List (Parameter ScanArguments) :=
  [{ name := "filter", arity := .repeated
     store := textValue fun text a => { a with filters := a.filters ++ [text] } },
   { name := "ranges", arity := .flag, store := presence fun a => { a with mode := .range } },
   { name := "format", arity := .single
     store := choiceValue [("text", false), ("json", true)] fun asJson a => { a with asJson } }]

/-- The options of an instrumented copy. -/
def instrumentParameters : List (Parameter InstrumentArguments) :=
  [{ name := "output", letter := some 'o', arity := .single
     store := pathValue fun path a => { a with output := path } },
   { name := "filter", arity := .repeated
     store := textValue fun text a => { a with filters := a.filters ++ [text] } },
   { name := "force", arity := .flag, store := presence fun a => { a with force := true } }]

/-! ### Commands -/

/-- The name of the program. -/
def programName : String := "chartcov"

/-- The shape of a command with the shared options, whose first operand is a chart. -/
def commandShape {σ : Type} (name : String) (parameters : List (Parameter σ))
    (chart : String → σ → σ) (trailing : Option (Parameter σ)) (required : List String) :
    Shape (SharedOptions × σ) :=
  let title := programName ++ "-" ++ name
  { title
    options := sharedParameters.map (Parameter.first σ)
      ++ parameters.map (Parameter.second SharedOptions) ++ informative _ title
    operands :=
      [Parameter.second SharedOptions
        { name := "chart", arity := .single, store := pathValue chart }]
    trailing := trailing.map (Parameter.second SharedOptions)
    required := "chart" :: required }

/-- What the command for a coverage run understands. -/
def runShape : Shape (SharedOptions × RunArguments) :=
  commandShape "run" runParameters (fun path a => { a with chart := path })
    (some
      { name := "extra", arity := .repeated
        store := textValue fun text a => { a with extraArgs := a.extraArgs ++ [text] } })
    []

/-- What the command for a listing understands. -/
def scanShape : Shape (SharedOptions × ScanArguments) :=
  commandShape "scan" scanParameters (fun path a => { a with chart := path }) none []

/-- What the command for an instrumented copy understands. -/
def instrumentShape : Shape (SharedOptions × InstrumentArguments) :=
  commandShape "instrument" instrumentParameters (fun path a => { a with chart := path }) none
    ["output"]

/-- The names of the commands. -/
def commandNames : List String :=
  ["run", "scan", "instrument", "help"]

/-- What is understood before the name of a command. -/
def programShape : Shape SharedOptions where
  title := programName
  options := sharedParameters ++ informative _ programName
  commands := commandNames

/-- Read the words behind the name of a command. -/
def readCommand (environment : String → Option String) (name : String) (words : List String) :
    Except UsageError (SharedOptions × Command) :=
  match name with
  | "run" => (runShape.readAll environment ({}, {}) words).map fun (s, a) => (s, .run a)
  | "scan" => (scanShape.readAll environment ({}, {}) words).map fun (s, a) => (s, .scan a)
  | "instrument" =>
    (instrumentShape.readAll environment ({}, {}) words).map fun (s, a) => (s, .instrument a)
  | _ =>
    match words with
    | [] => .error .helpAsked
    | [word] => .error (if commandNames.contains word then .helpAsked else .unknownCommand)
    | _ => .error .unknownCommand

/-- Read the words of a command line. -/
def Invocation.parse (environment : String → Option String) (words : List String) :
    Except UsageError Invocation := do
  let (r, command) ← programShape.read (programShape.start {}) words
  match command with
  | none =>
    let r ← r.settle
    .error (if r.given.isEmpty then .nothingGiven else .commandMissing)
  | some (name, rest) =>
    let (inner, command) ← readCommand environment name rest
    let outer ← r.settle
    let shared := inner.orElse outer.settings
    pure
      { verbose := shared.verbose.getD 0, quiet := shared.quiet
        color := shared.color.getD .auto, command }

end TemplateCoverage.CommandLine
