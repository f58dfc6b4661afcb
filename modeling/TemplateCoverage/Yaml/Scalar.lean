import TemplateCoverage.Yaml.Character

/-!
# The text of scalars

Scalars are plain, quoted or blocks. A line break inside a plain or quoted scalar counts as a space,
and further ones next to it as themselves. Each function reads from the first character that belongs
to the scalar and gives the text with what follows. There is no result if the scalar is malformed.
-/

namespace TemplateCoverage.Yaml

/-- Spaces and line breaks between two words of a scalar. -/
structure Gap where
  /-- The spaces and tabs before the first line break. -/
  spaces : List Char := []
  breaks : List Char := []
  /-- Whether the gap begins with a line break that stands for nothing. -/
  escaped : Bool := false

namespace Gap

/-- Whether the gap reaches another line. -/
def isBroken (g : Gap) : Bool :=
  g.escaped || !g.breaks.isEmpty

/-- What a gap stands for. -/
def text (g : Gap) : List Char :=
  if g.escaped then g.breaks
  else
    match g.breaks with
    | [] => g.spaces
    | ['\n'] => [' ']
    | '\n' :: more => more
    | all => all

/-- Read on in a gap. After a line break, no tab may stand before the column `indent`. -/
def read? (indent : Int) (g : Gap) : Input → Option (Gap × Input)
  | [] => some (g, [])
  | a :: rest =>
    if isBreak a.char then read? indent { g with breaks := g.breaks ++ [a.char] } rest
    else if isSpace a.char then
      if g.isBroken then
        if a.char = '\t' ∧ (a.column : Int) < indent then none else read? indent g rest
      else read? indent { g with spaces := g.spaces ++ [a.char] } rest
    else some (g, a :: rest)

end Gap

/-- The characters that have a meaning inside of brackets. -/
def isFlowIndicator (c : Char) : Bool :=
  c == ',' || c == '[' || c == ']' || c == '{' || c == '}'

/-- The characters of a plain scalar up to a space, a line break or an indicator. -/
def plainWord? (flow : Bool) : Input → Option (List Char × Input)
  | [] => some ([], [])
  | a :: rest =>
    let next := peek rest 0
    if endsWord a.char then some ([], a :: rest)
    else if flow && a.char == ':' && (isFlowIndicator next || next == '?') then none
    else if (a.char == ':' && endsWord next) || (flow && isFlowIndicator a.char) then
      some ([], a :: rest)
    else
      match plainWord? flow rest with
      | none => none
      | some (word, after) => some (a.char :: word, after)

/-- What a plain scalar holds, whether a line break follows it, and what comes after both. -/
structure PlainText where
  text : List Char
  broken : Bool
  rest : Input

/-- Read a plain scalar from a word on. The gap before the word is `gap`. -/
def plainFrom? (flow : Bool) (indent : Int) : Nat → Gap → Input → Option PlainText
  | 0, _, _ => none
  | n + 1, gap, input =>
    if isDocumentMarker input || peek input 0 == '#' then some ⟨[], gap.isBroken, input⟩
    else
      match plainWord? flow input with
      | none => none
      | some ([], rest) => some ⟨[], gap.isBroken, rest⟩
      | some (word, rest) =>
        match Gap.read? indent {} rest with
        | none => none
        | some (next, after) =>
          let front := gap.text ++ word
          if !next.isBroken && next.spaces.isEmpty then some ⟨front, false, after⟩
          else if !flow && decide ((columnOf after : Int) < indent) then
            some ⟨front, next.isBroken, after⟩
          else
            match plainFrom? flow indent n next after with
            | none => none
            | some more => some { more with text := front ++ more.text }

/-- Read a plain scalar. In a block, its lines stand at the column `indent` or after it. -/
def plain? (flow : Bool) (indent : Int) (input : Input) : Option PlainText :=
  plainFrom? flow indent (input.length + 1) {} input

/-- The value of a hexadecimal digit. -/
def hexDigit? (c : Char) : Option Nat :=
  if c.isDigit then some (c.toNat - '0'.toNat)
  else if 'a' ≤ c ∧ c ≤ 'f' then some (c.toNat - 'a'.toNat + 10)
  else if 'A' ≤ c ∧ c ≤ 'F' then some (c.toNat - 'A'.toNat + 10)
  else none

/-- The number that hexadecimal digits stand for. -/
def hexNumber? (digits : List Char) : Option Nat :=
  digits.foldlM (fun n c => (hexDigit? c).map (16 * n + ·)) 0

/-- What a character after a backslash stands for. -/
def escaped? (c : Char) : Option Char :=
  match c with
  | '0' => some '\x00'
  | 'a' => some '\x07'
  | 'b' => some '\x08'
  | 't' | '\t' => some '\t'
  | 'n' => some '\n'
  | 'v' => some '\x0b'
  | 'f' => some '\x0c'
  | 'r' => some '\r'
  | 'e' => some '\x1b'
  | ' ' => some ' '
  | '"' => some '"'
  | '/' => some '/'
  | '\\' => some '\\'
  | 'N' => some '\u0085'
  | '_' => some '\u00a0'
  | 'L' => some '\u2028'
  | 'P' => some '\u2029'
  | _ => none

/-- The number of digits of a numeric escape. -/
def escapeDigits? (c : Char) : Option Nat :=
  match c with
  | 'x' => some 2
  | 'u' => some 4
  | 'U' => some 8
  | _ => none

/-- The character of an escape, from behind the backslash on. -/
def escape? : Input → Option (Char × Input)
  | [] => none
  | a :: rest =>
    match escapeDigits? a.char with
    | none => (escaped? a.char).map fun c => (c, rest)
    | some n =>
      match hexNumber? ((rest.take n).map (·.char)) with
      | none => none
      | some code => if code.isValidChar then some (Char.ofNat code, rest.drop n) else none

/-- Read a quoted scalar from behind its opening quote on. -/
def quotedFrom? (quote : Char) : Nat → Input → Option (List Char × Input)
  | 0, _ => none
  | _ + 1, [] => none
  | n + 1, a :: rest =>
    let more (front : List Char) (after : Input) : Option (List Char × Input) :=
      (quotedFrom? quote n after).map fun (text, rest) => (front ++ text, rest)
    if isDocumentMarker (a :: rest) || a.char == endMark then none
    else if a.char = quote then
      if quote = '\'' ∧ peek rest 0 = '\'' then more ['\''] (rest.drop 1) else some ([], rest)
    else if isSpace a.char || isBreak a.char then
      match Gap.read? 0 {} (a :: rest) with
      | none => none
      | some (gap, after) => more gap.text after
    else if quote = '"' ∧ a.char = '\\' then
      if isBreak (peek rest 0) then
        match Gap.read? 0 { escaped := true } (rest.drop 1) with
        | none => none
        | some (gap, after) => more gap.text after
      else
        match escape? rest with
        | none => none
        | some (c, after) => more [c] after
    else more [a.char] rest

/-- Read a quoted scalar from behind its opening quote on. -/
def quoted? (quote : Char) (input : Input) : Option (List Char × Input) :=
  quotedFrom? quote (input.length + 1) input

/-- Which of the line breaks at its end a block keeps. -/
inductive Chomping where
  | one
  | none
  | all
  deriving DecidableEq, Repr

/-- What the first line of a block says. -/
structure BlockHeader where
  chomping : Chomping := .one
  indentation : Option Nat := none

namespace BlockHeader

/-- The chomping that a character asks for. -/
def chomping? (c : Char) : Option Chomping :=
  if c = '+' then some .all else if c = '-' then some .none else none

/-- Read the signs of a header, in either order. -/
def signs? (input : Input) : Option (BlockHeader × Input) :=
  let digit (c : Char) : Option Nat := if c.isDigit then some (c.toNat - '0'.toNat) else none
  let refuseZero (h : BlockHeader) (rest : Input) : Option (BlockHeader × Input) :=
    if h.indentation = some 0 then .none else some (h, rest)
  match chomping? (peek input 0), digit (peek input 0) with
  | some c, _ =>
    match digit (peek input 1) with
    | some d => refuseZero ⟨c, some d⟩ (input.drop 2)
    | .none => some (⟨c, .none⟩, input.drop 1)
  | .none, some d =>
    match chomping? (peek input 1) with
    | some c => refuseZero ⟨c, some d⟩ (input.drop 2)
    | .none => refuseZero ⟨.one, some d⟩ (input.drop 1)
  | .none, .none => some ({}, input)

/-- Read the header of a block to the end of its line. -/
def read? (input : Input) : Option (BlockHeader × Input) :=
  match signs? input with
  | .none => .none
  | some (header, rest) => (afterLine? rest).map fun after => (header, after)

end BlockHeader

/-- Skip empty lines and the indentation of the next line. The result holds the line breaks and the
greatest column met. No tab may stand where indentation is expected. -/
def emptyLines? (indent : Option Nat) (deepest : Nat) : Input → Option (List Char × Nat × Input)
  | [] => some ([], deepest, [])
  | a :: rest =>
    let inside :=
      match indent with
      | none => true
      | some n => decide (a.column < n)
    if inside && a.char == ' ' then emptyLines? indent deepest rest
    else if inside && a.char == '\t' then none
    else if isBreak a.char then
      match emptyLines? indent (max deepest a.column) rest with
      | none => none
      | some (breaks, column, after) => some (a.char :: breaks, column, after)
    else some ([], max deepest a.column, a :: rest)

/-- The lines of a block read so far. -/
structure BlockText where
  text : List Char := []
  /-- The break that ends the last line. -/
  lineEnd : List Char := []
  /-- The empty lines after it. -/
  empty : List Char := []
  /-- Whether the last line begins with a space or a tab. -/
  spaced : Bool := false

/-- The text of a block with one more line. Between two lines of a folded block that do not begin
with a space, a single line break becomes a space. -/
def BlockText.add (b : BlockText) (folded : Bool) (line lineEnd empty : List Char) : BlockText :=
  let spaced := (line.head?.map isSpace).getD false
  let joint :=
    if folded && b.lineEnd == ['\n'] && !b.spaced && !spaced then
      if b.empty.isEmpty then [' '] else []
    else b.lineEnd
  { text := b.text ++ joint ++ b.empty ++ line, lineEnd, empty, spaced }

/-- Read the lines of a block that stand at its column. -/
def blockLines? (folded : Bool) (indent : Nat) :
    Nat → BlockText → Input → Option (BlockText × Input)
  | 0, _, _ => none
  | n + 1, b, input =>
    if columnOf input ≠ indent ∨ peek input 0 = endMark then some (b, input)
    else
      let line := textUntil endsLine input
      let rest := afterUntil endsLine input
      let lineEnd := if isBreak (peek rest 0) then [peek rest 0] else []
      match emptyLines? (some indent) 0 (rest.drop lineEnd.length) with
      | none => none
      | some (empty, _, after) =>
        blockLines? folded indent n (b.add folded line lineEnd empty) after

/-- Read a block from behind its indicator on, inside of a block at the column `outer`. -/
def block? (folded : Bool) (outer : Int) (input : Input) : Option (List Char × Input) :=
  match BlockHeader.read? input with
  | none => none
  | some (header, rest) =>
    let given := header.indentation.map fun (n : Nat) => if 0 ≤ outer then (outer + n).toNat else n
    match emptyLines? given 0 rest with
    | none => none
    | some (empty, deepest, body) =>
      let indent := given.getD (max deepest (max (outer + 1).toNat 1))
      match blockLines? folded indent (input.length + 1) { empty } body with
      | none => none
      | some (b, after) =>
        let tail :=
          match header.chomping with
          | .none => []
          | .one => b.lineEnd
          | .all => b.lineEnd ++ b.empty
        some (b.text ++ tail, after)

end TemplateCoverage.Yaml
