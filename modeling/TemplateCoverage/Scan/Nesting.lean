import TemplateCoverage.Scan.Basic

/-!
# The nesting of blocks

The tokens of a file drive a machine that remembers the blocks that are open and the body they stand
in. A token that closes an arm takes the innermost block; what is on the stack below the point where
the body was opened does not belong to the body and stays.

* Without an open block, the arm begins at the line of the body, or else is the closing line alone,
  which is noted.
* `else` leaves a new block behind, which began at its line and belongs to the same decision.
* An `end` that finds no block of the body closes the body itself.
-/

namespace TemplateCoverage

/-- A block that is open: the line where its current arm began, and the line of its opener. -/
structure Frame where
  line : Nat
  decisionLine : Nat
  deriving DecidableEq, Repr

/-- A named body that is open: where it began, and how many blocks were open there. -/
structure OpenDefine where
  name : String
  line : Nat
  depth : Nat
  deriving DecidableEq, Repr

/-- The state of the machine. -/
structure Nesting where
  /-- The open blocks, the innermost first. -/
  frames : List Frame := []
  define : Option OpenDefine := none
  /-- The line of the last arm. -/
  countedLine : Nat := 0
  /-- The number of arms closed on that line. -/
  counted : Nat := 0
  deriving DecidableEq, Repr

namespace Nesting

/-- The number of open blocks that do not belong to the open body. -/
def floor (s : Nesting) : Nat :=
  match s.define with
  | none => 0
  | some d => d.depth

/-- The place of the next arm among those of the line. -/
def nextOccurrence (s : Nesting) (line : Nat) : Nat :=
  if s.countedLine = line then s.counted + 1 else 1

/-- The frame that a closing token on the given line ends, and the state without it. Where there is
none, the open body or the line itself stands in for it. -/
def close (s : Nesting) (line : Nat) : Frame × Nesting :=
  match s.frames with
  | frame :: outer =>
    if s.floor < s.frames.length then (frame, { s with frames := outer }) else (standIn, s)
  | [] => (standIn, s)
where
  /-- What is closed where no block is open. -/
  standIn : Frame :=
    match s.define with
    | some d => ⟨d.line, d.line⟩
    | none => ⟨line, line⟩

/-- Whether a closing token finds neither a block nor a body. -/
def isStray (s : Nesting) : Bool :=
  s.frames.isEmpty && s.define.isNone

/-- The last line of an arm that began at `start` and is closed by a token on `line`: the line
before the token, or the line of the token if the arm began there. -/
def lastLine (start line : Nat) : Nat :=
  if start < line then line - 1 else line

/-- The arm that a token closes, if `frame` is what it ends. -/
def armOf (s : Nesting) (t : Token) (frame : Frame) : Arm :=
  { trigger := t.kind.trigger
    define := s.define.map (·.name)
    tokenLine := t.line
    column := t.column
    occurrence := s.nextOccurrence t.line
    startLine := frame.line
    endLine := lastLine frame.line t.line
    decisionLine := frame.decisionLine
    trimLeft := t.trimLeft }

/-- Close an arm: the frame that ended, the state after it, and what was found. -/
def closeArm (file : String) (s : Nesting) (t : Token) : Frame × Nesting × List Finding :=
  let (frame, rest) := s.close t.line
  let notes := if s.isStray then [Finding.note ⟨file, t.line, .strayClose⟩] else []
  let arm := s.armOf t frame
  (frame, { rest with countedLine := t.line, counted := arm.occurrence }, notes ++ [.arm arm])

/-- Read one token: the state after it, and what was found. -/
def step (file : String) (s : Nesting) (t : Token) : Nesting × List Finding :=
  if t.inString then (s, [.note ⟨file, t.line, .tokenInString⟩])
  else
    match t.kind with
    | .opener _ => ({ s with frames := ⟨t.line, t.line⟩ :: s.frames }, [])
    | .define name =>
      let notes :=
        match s.define with
        | none => []
        | some d => [Finding.note ⟨file, t.line, .replacedDefine name d.name d.line⟩]
      ({ s with define := some ⟨name, t.line, s.frames.length⟩ }, notes)
    | .elseArm | .elseIfArm =>
      let (frame, after, found) := s.closeArm file t
      ({ after with frames := ⟨t.line, frame.decisionLine⟩ :: after.frames }, found)
    | .endBlock =>
      let (_, after, found) := s.closeArm file t
      let closesDefine := s.define.any fun d => s.frames.length ≤ d.depth
      (if closesDefine then { after with define := none } else after, found)

/-- Read tokens in order: the state after them, and what was found. -/
def run (file : String) (s : Nesting) : List Token → Nesting × List Finding
  | [] => (s, [])
  | t :: rest =>
    let (next, found) := s.step file t
    let (last, more) := next.run file rest
    (last, found ++ more)

/-- What is still open at the end of a file: the blocks from the outermost on, then the body. -/
def unclosed (file : String) (s : Nesting) : List Finding :=
  s.frames.reverse.map (fun f => .note ⟨file, f.line, .openBlock⟩)
    ++ (s.define.map fun d => Finding.note ⟨file, d.line, .openDefine d.name⟩).toList

end Nesting

end TemplateCoverage
