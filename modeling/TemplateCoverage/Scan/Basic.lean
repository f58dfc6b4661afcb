import TemplateCoverage.Token.Basic

/-!
# What a scan finds

A scan of a template file finds arms and irregularities. An arm is the part of a block between two
control tokens; the token that closes it gives it its position. An irregularity of the nesting never
stops a scan: it becomes a note.
-/

namespace TemplateCoverage

/-- The token that closes an arm. -/
inductive Trigger where
  | elseArm
  | elseIfArm
  | endBlock
  deriving DecidableEq, Repr

/-- The trigger of a token that closes an arm. The kinds that close none count as `end`. -/
def TokenKind.trigger : TokenKind → Trigger
  | .elseArm => .elseArm
  | .elseIfArm => .elseIfArm
  | _ => .endBlock

/-- An arm of a block. -/
structure Arm where
  trigger : Trigger
  /-- The name of the body that the arm stands in, if it stands in one. -/
  define : Option String
  /-- The line of the closing token. -/
  tokenLine : Nat
  /-- The byte offset of the closing token on its line. -/
  column : Nat
  /-- The place of the closing token among those of its line, counted from one. -/
  occurrence : Nat
  /-- The first line of the arm. -/
  startLine : Nat
  /-- The last line of the arm. -/
  endLine : Nat
  /-- The line that opened the block to which the arm belongs. -/
  decisionLine : Nat
  /-- Whether the closing token trims white space before it. -/
  trimLeft : Bool
  deriving DecidableEq, Repr

/-- What was tolerated in the nesting of a file. -/
inductive Irregularity where
  /-- A token was left alone because it is text of a string that will be evaluated. -/
  | tokenInString
  /-- An arm was closed where no block was open. -/
  | strayClose
  /-- A block was still open at the end of the file. -/
  | openBlock
  /-- A body was opened while another one, from the line `openedAt`, was open. -/
  | replacedDefine (name openName : String) (openedAt : Nat)
  /-- A body was still open at the end of the file. -/
  | openDefine (name : String)
  deriving DecidableEq, Repr

/-- The wording of an irregularity. -/
def Irregularity.message : Irregularity → String
  | .tokenInString => "control token inside dynamic-evaluation string ignored"
  | .strayClose => "closing token without an open block"
  | .openBlock => "block opened here is never closed"
  | .replacedDefine name openName openedAt =>
    "define \"" ++ name ++ "\" opened before \"" ++ openName ++ "\" (line " ++ toString openedAt
      ++ ") was closed"
  | .openDefine name => "define \"" ++ name ++ "\" is never closed"

/-- An irregularity at its place. -/
structure Note where
  file : String
  line : Nat
  cause : Irregularity
  deriving DecidableEq, Repr

/-- The wording of a note. -/
def Note.message (n : Note) : String :=
  n.cause.message

/-- The results of a scan in the order in which they turn up. -/
inductive Finding where
  | arm (a : Arm)
  | note (n : Note)
  deriving DecidableEq, Repr

namespace Finding

/-- The arm of a finding. -/
def arm? : Finding → Option Arm
  | .arm a => some a
  | .note _ => none

/-- The note of a finding. -/
def note? : Finding → Option Note
  | .arm _ => none
  | .note n => some n

/-- The arms among the findings. -/
def arms (findings : List Finding) : List Arm :=
  findings.filterMap arm?

/-- The notes among the findings. -/
def notes (findings : List Finding) : List Note :=
  findings.filterMap note?

end Finding

end TemplateCoverage
