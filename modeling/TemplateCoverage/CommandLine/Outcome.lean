import TemplateCoverage.CommandLine.Command
import TemplateCoverage.Log.Filter

/-!
# The program as a whole

From the words of a command line, the environment, the clock and the files to an exit code, what is
written, and the files afterwards.
-/

namespace TemplateCoverage.CommandLine

/-- What surrounds a call of the program. -/
structure Surroundings where
  /-- The variables of the environment. -/
  environment : String → Option String := fun _ => none
  clock : Clock

/-- What a call of the program ends with. -/
structure Outcome where
  code : Nat
  stdout : String := ""
  stderr : String := ""
  deriving DecidableEq, Repr

/-- The text for those who ask for help. -/
def helpText : String :=
  String.intercalate "\n"
    ["Usage: chartcov [OPTIONS] <COMMAND>", "", "Commands:",
     "  run <CHART>         Instrument, render once per values input, and report coverage",
     "  scan <CHART>        List every branch without rendering",
     "  instrument <CHART>  Write the instrumented chart to a directory",
     "  help                Print this message", "", "Options:",
     "  -v, --verbose        Tell more", "  -q, --quiet          Tell failures only",
     "      --color <COLOR>  auto, always or never", "  -h, --help           Print help",
     "  -V, --version        Print version", ""]

/-- What is wrong with the words of a command line. -/
def UsageError.message : UsageError → String
  | .helpAsked | .nothingGiven => helpText
  | .versionAsked title => title ++ " " ++ Report.toolVersion ++ "\n"
  | .commandMissing => "error: a command is missing\n"
  | .unknownCommand => "error: unknown command\n"
  | .unknownArgument => "error: unexpected argument\n"
  | .argumentMissing => "error: a required argument is missing\n"
  | .invalidValue | .malformedNumber => "error: invalid value for an option\n"
  | .repeatedArgument => "error: an option is given more than once\n"
  | .superfluousValue => "error: an option takes no value\n"

/-- How a call ends whose words are not carried out as a command. -/
def UsageError.outcome (e : UsageError) : Outcome :=
  match e with
  | .helpAsked | .versionAsked _ => { code := 0, stdout := e.message }
  | _ => { code := 2, stderr := e.message }

/-- The looks that are asked for. -/
def Invocation.style (i : Invocation) (environment : String → Option String) : Style :=
  { verbosity := i.verbosity, color := i.color
    escapes := (environment "CLICOLOR_FORCE").getD "0" ≠ "0" }

/-- The filter of the log: the one in the environment, if it can be read, or else that of the
verbosity. -/
def Invocation.logFilter (i : Invocation) (environment : String → Option String) : LogFilter :=
  ((environment "RUST_LOG").bind LogFilter.parse?).getD (.atMost i.verbosity.logLevel)

/-- What is written to the error stream. -/
def errorText (filter : LogFilter) (time : String) : Emission → String
  | .log record => if filter.admits record then record.line time ++ "\n" else ""
  | .message line => line ++ "\n"
  | .event _ | .output _ => ""

/-- How a command ends. -/
def Invocation.outcome (i : Invocation) (s : Surroundings) (fs : FileSystem) :
    Outcome × FileSystem :=
  let (result, world) :=
    (i.command.carryOut (i.style s.environment) s.clock).run.run { files := fs }
  let emitted := world.emitted.toList
  let filter := i.logFilter s.environment
  let told := String.join (emitted.map (errorText filter s.clock.date))
  let stdout := String.join (emitted.filterMap Emission.output?)
  match result with
  | .ok () => ({ code := 0, stdout, stderr := told }, world.files)
  | .error e =>
    ({ code := 1, stdout, stderr := told ++ "Error: " ++ e.message ++ "\n" }, world.files)

/-- How a call of the program ends. -/
def outcome (s : Surroundings) (fs : FileSystem) (words : List String) : Outcome × FileSystem :=
  match Invocation.parse s.environment words with
  | .error e => (e.outcome, fs)
  | .ok i => i.outcome s fs

end TemplateCoverage.CommandLine
