import TemplateCoverage.Text.Quoted

/-!
# Log records

What a computation notes about itself. A record has a message and fields; it is written on one line
with its level.
-/

namespace TemplateCoverage

/-- How important a record is, the most important level first. -/
inductive LogLevel where
  | error
  | warn
  | info
  | debug
  | trace
  deriving DecidableEq, Repr

namespace LogLevel

/-- The rank of a level: the higher, the less important. -/
def rank : LogLevel → Nat
  | .error => 1
  | .warn => 2
  | .info => 3
  | .debug => 4
  | .trace => 5

/-- The word for a level, five characters wide. -/
def word : LogLevel → String
  | .error => "ERROR"
  | .warn => " WARN"
  | .info => " INFO"
  | .debug => "DEBUG"
  | .trace => "TRACE"

/-- The name of a level. -/
def name : LogLevel → String
  | .error => "error"
  | .warn => "warn"
  | .info => "info"
  | .debug => "debug"
  | .trace => "trace"

/-- The levels. -/
def all : List LogLevel :=
  [.error, .warn, .info, .debug, .trace]

end LogLevel

/-- The parts of the program that make records. -/
inductive LogSource where
  | chart
  | workspace
  | scan
  | allocation
  | injection
  | run
  | renderer
  | trace
  | session
  | values
  deriving DecidableEq, Repr

/-- The name of a part, which filters refer to. -/
def LogSource.name : LogSource → String
  | .chart => "chartcov::chart"
  | .workspace => "chartcov::workspace"
  | .scan => "chartcov::coverage::scanner"
  | .allocation => "chartcov::coverage::branch"
  | .injection => "chartcov::coverage::instrument"
  | .run => "chartcov::engine"
  | .renderer => "chartcov::renderer"
  | .trace => "chartcov::coverage::trace"
  | .session => "chartcov::coverage::collector"
  | .values => "chartcov_cli::handlers::values"

/-- A record. -/
structure LogRecord where
  level : LogLevel
  source : LogSource
  message : String
  fields : List (String × String) := []
  /-- A further message, which stands behind the fields. -/
  detail : Option String := none
  deriving DecidableEq, Repr

namespace LogRecord

/-- A character of a message. Those that could steer a terminal are written as their codes. -/
def messageChar (c : Char) : List Char :=
  let n := c.toNat
  if c = '\x1b' ∨ c = '\x07' ∨ c = '\x08' ∨ c = '\x0c' ∨ c = '\x7f' then
    ['\\', 'x'] ++ Text.hexText 2 n
  else if 0x80 ≤ n ∧ n ≤ 0x9F then Text.codeEscape c
  else [c]

/-- A message as it is written. -/
def messageText (message : String) : String :=
  String.ofList (message.toList.flatMap messageChar)

/-- The names of the fields. A message is a field, too. -/
def fieldNames (r : LogRecord) : List String :=
  "message" :: r.fields.map (·.1)

/-- The line of a record that was made at the given time. -/
def line (r : LogRecord) (time : String) : String :=
  let fields := r.fields.map fun (name, value) => name ++ "=" ++ value
  String.intercalate " "
    ([time, r.level.word, messageText r.message] ++ fields ++ r.detail.toList.map messageText)

end LogRecord

end TemplateCoverage
