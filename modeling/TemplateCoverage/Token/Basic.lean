/-!
# Control tokens

The actions of a template that shape its control flow: what opens a block, what starts the next arm
of one, what ends it, and what opens a named body.
-/

namespace TemplateCoverage

/-- The words that open a block. -/
inductive Opener where
  | ifBlock
  | withBlock
  | rangeBlock
  deriving DecidableEq, Repr

/-- What a control token does. -/
inductive TokenKind where
  /-- `if`, `with` or `range` with a pipeline. -/
  | opener (word : Opener)
  /-- `else` alone. -/
  | elseArm
  /-- `else if` or `else with` with a pipeline. -/
  | elseIfArm
  /-- `define "name"` or `block "name"` with a pipeline. -/
  | define (name : String)
  /-- `end`. -/
  | endBlock
  deriving DecidableEq, Repr

namespace TokenKind

/-- Whether the token opens a block. -/
def opens : TokenKind → Bool
  | .opener _ => true
  | _ => false

/-- Whether the token closes an arm, and so names a branch. -/
def closesArm : TokenKind → Bool
  | .elseArm | .elseIfArm | .endBlock => true
  | _ => false

/-- Whether the keyword calls for something after it. -/
def needsArgument : TokenKind → Bool
  | .elseArm | .endBlock => false
  | _ => true

end TokenKind

/-- Where a token stands on its line. -/
inductive Placement where
  /-- Nothing but white space surrounds the token. -/
  | standalone
  /-- The token shares its line with other text, or goes on beyond it. -/
  | inLine
  deriving DecidableEq, Repr

/-- A control token at its place in a file. -/
structure Token where
  kind : TokenKind
  /-- The line, counted from one. -/
  line : Nat
  /-- The byte offset of the opening braces within the line. -/
  column : Nat
  /-- Whether the opening braces carry the marker that trims white space before them. -/
  trimLeft : Bool
  placement : Placement
  /-- Whether the token is text of a string that a function on the line will evaluate. -/
  inString : Bool
  deriving DecidableEq, Repr

end TemplateCoverage
