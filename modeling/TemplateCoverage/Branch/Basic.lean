import TemplateCoverage.FileKind
import TemplateCoverage.Scan.Basic

/-!
# Branches

A branch is an arm of a file together with its ID. The ID names the line of the closing token, and
its place on the line from the second one on:

* `templates/deployment.yaml:L12` for a template file,
* `templates/deployment.yaml:L12.2` for the second arm closed on the line,
* `templates/_helpers.tpl:app.labels:L7` for a helper file, with the body that holds the arm.

`Branch.address` shows the lines that the arm spans in place of the line of the token.
-/

namespace TemplateCoverage

/-- The ID of a branch. IDs are ordered by their UTF-8 bytes, which is the order by code point. -/
abbrev BranchId := String

/-- What an address shows of a branch. -/
inductive AddressMode where
  /-- The line of the closing token. -/
  | point
  /-- The first and the last line of the arm. -/
  | range
  deriving DecidableEq, Repr

/-- A branch: an arm with its file and its ID. -/
structure Branch extends Arm where
  id : BranchId
  file : String
  kind : FileKind
  deriving DecidableEq, Repr

namespace Branch

/-- The ID made of a file, the body if the file is a helper, the lines, and the place on the line if
it is not the first. -/
def format (file : String) (kind : FileKind) (define : Option String) (lines : String)
    (occurrence : Nat) : BranchId :=
  let scope :=
    match kind, define with
    | .helper, some name => ":" ++ name
    | _, _ => ""
  let place := if 2 ≤ occurrence then "." ++ toString occurrence else ""
  file ++ scope ++ ":" ++ lines ++ place

/-- The ID of an arm. -/
def pointId (file : String) (kind : FileKind) (arm : Arm) : BranchId :=
  format file kind arm.define ("L" ++ toString arm.tokenLine) arm.occurrence

/-- The branch of an arm. -/
def ofArm (file : String) (kind : FileKind) (arm : Arm) : Branch :=
  { arm with id := pointId file kind arm, file, kind }

/-- The address of a branch. -/
def address (b : Branch) : AddressMode → BranchId
  | .point => b.id
  | .range =>
    format b.file b.kind b.define ("L" ++ toString b.startLine ++ "-L" ++ toString b.endLine)
      b.occurrence

/-- The lines that the arm spans. -/
def lines (b : Branch) : List Nat :=
  List.range' b.startLine (b.endLine + 1 - b.startLine)

/-- Whether the branch stands in a helper file. -/
def isHelper (b : Branch) : Bool :=
  b.kind = .helper

end Branch

end TemplateCoverage
