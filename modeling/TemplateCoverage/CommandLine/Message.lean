import TemplateCoverage.CommandLine.Error
import TemplateCoverage.Log
import TemplateCoverage.Report.Basic

/-!
# Lines for the user
-/

namespace TemplateCoverage.CommandLine

/-- How much a command tells. -/
inductive Verbosity where
  | quiet
  | normal
  | verbose
  | debug
  deriving DecidableEq, Repr

namespace Verbosity

/-- The word for a verbosity. -/
def word : Verbosity → String
  | .quiet => "Quiet"
  | .normal => "Normal"
  | .verbose => "Verbose"
  | .debug => "Debug"

/-- The verbosity that a word stands for. -/
def ofWord? (word : String) : Option Verbosity :=
  [quiet, normal, .verbose, .debug].find? fun v => v.word = word

/-- Whether only failures are told. -/
def isQuiet (v : Verbosity) : Bool :=
  v = .quiet

/-- Whether the coverage of every run is told. -/
def isVerbose (v : Verbosity) : Bool :=
  v = .verbose ∨ v = .debug

/-- The least important level that is logged. -/
def logLevel : Verbosity → LogLevel
  | .quiet => .error
  | .normal => .warn
  | .verbose => .info
  | .debug => .debug

end Verbosity

/-- Whether messages are colored. Where it is left to the terminal, there is none. -/
inductive ColorChoice where
  | auto
  | always
  | never
  deriving DecidableEq, Repr

/-- The word for a color choice. -/
def ColorChoice.word : ColorChoice → String
  | .auto => "Auto"
  | .always => "Always"
  | .never => "Never"

/-- The colors of messages. -/
inductive Color where
  | red
  | green
  | yellow
  | blue
  deriving DecidableEq, Repr

/-- The number of a color in an escape code. -/
def Color.number : Color → String
  | .red => "31"
  | .green => "32"
  | .yellow => "33"
  | .blue => "34"

/-- A bold text in a color. -/
def Color.bold (color : Color) (text : String) : String :=
  "\x1b[" ++ color.number ++ "m\x1b[1m" ++ text ++ "\x1b[0m"

/-- How messages look. -/
structure Style where
  verbosity : Verbosity := .normal
  color : ColorChoice := .auto
  /-- Whether escape codes are written where no terminal shows them. -/
  escapes : Bool := false
  deriving DecidableEq, Repr

/-- The kinds of messages. -/
inductive MessageKind where
  | success
  | failure
  | warning
  | info
  deriving DecidableEq, Repr

namespace MessageKind

/-- What a message begins with. -/
def word : MessageKind → String
  | .success => "OK"
  | .failure => "FAIL"
  | .warning => "WARN"
  | .info => "INFO"

/-- What a message begins with where colors are on. -/
def symbol : MessageKind → String
  | .success => "✓"
  | .failure => "✗"
  | .warning => "⚠"
  | .info => "ℹ"

/-- The color of the symbol. -/
def color : MessageKind → Color
  | .success => .green
  | .failure => .red
  | .warning => .yellow
  | .info => .blue

end MessageKind

namespace Style

/-- Whether colors are on. -/
def usesColor (s : Style) : Bool :=
  s.color = .always

/-- What a message begins with. -/
def mark (s : Style) (kind : MessageKind) : String :=
  if !s.usesColor then kind.word
  else if s.escapes then kind.color.bold kind.symbol
  else kind.symbol

/-- The line of a message. All but failures are left out where it is quiet. -/
def line? (s : Style) (kind : MessageKind) (text : String) : Option String :=
  if s.verbosity.isQuiet ∧ kind ≠ .failure then none else some (s.mark kind ++ " " ++ text)

end Style

/-- A note at its place. -/
def noteLine (file : String) (line : Nat) (message : String) : String :=
  file ++ ":" ++ toString line ++ ": " ++ message

/-- What is told when a run is given up. -/
def abortLine (completed total : Nat) : String :=
  "Coverage run aborted after " ++ toString completed ++ " of " ++ toString total
    ++ " run(s); no report written"

/-- The color of a status. -/
def statusColor : Status → Color
  | .full => .green
  | .partially => .yellow
  | .low => .red

/-- The coverage in one line, in the color of its status on request. -/
def summaryLine (s : Summary) (styled : Bool) : String :=
  match s.coveragePercent, s.status with
  | some percent, some status =>
    let text := percentText percent ++ " branch coverage (" ++ toString s.coveredBranches ++ "/"
      ++ toString s.totalBranches ++ " branches)"
    if styled then (statusColor status).bold text else text
  | _, _ => "No branches found"

/-- A coverage below a threshold is an error. Without a percentage, there is none. -/
def checkThreshold (s : Summary) (threshold : Option Float) : Except CommandError Unit :=
  match threshold, s.coveragePercent with
  | some t, some actual => if actual < t then .error (.belowThreshold actual t) else .ok ()
  | _, _ => .ok ()

end TemplateCoverage.CommandLine
