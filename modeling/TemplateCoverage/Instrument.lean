import TemplateCoverage.Branch.Basic
import TemplateCoverage.Template.Tracking
import TemplateCoverage.Text.Line

/-!
# Instrumenting a file

The instrumented text is the source text with a piece of tracking code before the closing token of
every branch. A template file also gets code that sets up the trace state in front of it, and two
sentinel lines behind it that print what the state has collected.

`pieces` keeps source text and inserted code apart, so that nothing of the source can be lost.
-/

namespace TemplateCoverage

open Template Text

/-- What every sentinel line begins with. -/
def sentinelPrefix : String := "# chartcov:trace:"

/-- The keys under which a context may hold the root context, where none are configured. -/
def defaultWrapperKeys : List String :=
  ["context", "root", "ctx", "top"]

/-- The code that sets up an empty trace state unless there is one. -/
def initCall : String :=
  action openBraces ("if not (hasKey $ " ++ literal stateKey ++ ")")
    ++ action openBraces ("$_ := set $ " ++ literal stateKey
        ++ " (dict \"files\" (list) \"helpers\" (list))")
    ++ action openBraces "end"

/-- A line break and the sentinel of one list. -/
def sentinelCall (collection : String) : String :=
  action openBraces (literal "\n") ++ sentinelPrefix ++ collection ++ " "
    ++ action openBraces
        ("toJson (index $ " ++ literal stateKey ++ " " ++ literal collection ++ ")")

/-- The code that prints both lists of the trace state. -/
def reportCall : String :=
  sentinelCall FileKind.template.collection ++ sentinelCall FileKind.helper.collection ++ "\n"

/-- The tracking code of a branch. Outside of bodies, a template file always runs with the root
context; everywhere else the state has to be looked for. -/
def trackingCode (wrapperKeys : List String) (b : Branch) : Code :=
  if b.kind = .template ∧ b.define = none then strictTracking b.kind.collection b.id
  else tolerantTracking wrapperKeys b.kind.collection b.id

/-- The text of the tracking code of a branch. It trims the white space before it if the closing
token does. -/
def trackingCall (wrapperKeys : List String) (b : Branch) : String :=
  (trackingCode wrapperKeys b).text (if b.trimLeft then trimBraces else openBraces)

/-- A part of an instrumented text. -/
inductive Piece where
  /-- Text of the source. -/
  | source (text : List Char)
  /-- The tracking code of a branch. -/
  | call (b : Branch)
  /-- A branch whose column is not a position of its line. It gets no code. -/
  | skipped (b : Branch)

namespace Piece

/-- The text that a piece contributes. -/
def text (wrapperKeys : List String) : Piece → List Char
  | .source cs => cs
  | .call b => (trackingCall wrapperKeys b).toList
  | .skipped _ => []

/-- The source text in a piece. -/
def sourceText : Piece → List Char
  | .source cs => cs
  | _ => []

end Piece

/-- The pieces of a line from the byte `cursor` on, where `rest` is what follows there. The branches
are in the order of their columns. -/
def linePieces (cursor : Nat) (rest : List Char) : List Branch → List Piece
  | [] => [.source rest]
  | b :: more =>
    if b.column < cursor then .skipped b :: linePieces cursor rest more
    else
      match splitAtByte? (b.column - cursor) rest with
      | none => .skipped b :: linePieces cursor rest more
      | some (front, back) => .source front :: .call b :: linePieces b.column back more

/-- The branches of a line in the order of their columns. Branches of one column keep their
order. -/
def branchesOfLine (branches : List Branch) (number : Nat) : List Branch :=
  (branches.filter fun b => b.tokenLine = number).mergeSort fun a b => a.column ≤ b.column

/-- The pieces of a source text with the tracking code of the given branches. -/
def pieces (source : List Char) (branches : List Branch) : List Piece :=
  (numberedLines source).flatMap fun (line, number) =>
    linePieces 0 line (branchesOfLine branches number)

/-- The instrumented text of a file with the given branches. -/
def instrument (wrapperKeys : List String) (source : String) (kind : FileKind)
    (branches : List Branch) : String :=
  let body := (pieces source.toList branches).flatMap (Piece.text wrapperKeys)
  match kind with
  | .helper => String.ofList body
  | .template => initCall ++ String.ofList body ++ reportCall

end TemplateCoverage
