import TemplateCoverage.Yaml.Property

/-!
# The tokens of a YAML text

In a block, indentation opens and closes collections, and a key shows only by the colon behind it:
each item that could be a key is remembered until its colon comes or its line ends, and the tokens
of the key are then put in front of it.
-/

namespace TemplateCoverage.Yaml

/-- An item that could be a key. -/
structure Candidate where
  /-- The number of tokens before it. -/
  place : Nat
  /-- Whether it stands where only a key may stand. -/
  isRequired : Bool
  line : Nat
  column : Nat
  index : Nat

/-- How far a key may reach. -/
def keyLimit : Nat := 1024

/-- The tokens found so far, with what decides on the next ones. -/
structure TokenStream where
  tokens : Array Token := #[]
  /-- The column of the innermost open block, or -1. -/
  indent : Int := -1
  /-- The columns of the blocks around it, the innermost first. -/
  outer : List Int := []
  /-- The possible key of each open bracket, the innermost first, and of the block around all. -/
  candidates : List (Option Candidate) := [none]
  /-- Whether a key may begin here. -/
  keyAllowed : Bool := true

namespace TokenStream

/-- Whether a bracket is open. -/
def inFlow (s : TokenStream) : Bool :=
  decide (1 < s.candidates.length)

/-- Add a token. -/
def push (s : TokenStream) (t : Token) : TokenStream :=
  { s with tokens := s.tokens.push t }

/-- Put a token before the ones from a place on. -/
def insertAt (s : TokenStream) (place : Nat) (t : Token) : TokenStream :=
  { s with tokens := s.tokens.take place ++ #[t] ++ s.tokens.drop place }

/-- Skip spaces, comments and line breaks, and an encoding mark at the front of a line, which takes up
a column. In a block, a key may begin on the new line, so no tab may stand in front of it. -/
def skip (s : TokenStream) (comment : Bool) : Input → TokenStream × Input
  | [] => (s, [])
  | a :: rest =>
    if comment && !endsLine a.char then s.skip true rest
    else if a.column = 0 ∧ a.char = encodingMark then s.skip false rest
    else if a.char = ' ' ∨ (a.char = '\t' ∧ (s.inFlow ∨ !s.keyAllowed)) then s.skip false rest
    else if a.char = '#' then s.skip true rest
    else if isBreak a.char then
      TokenStream.skip { s with keyAllowed := s.keyAllowed || !s.inFlow } false rest
    else (s, a :: rest)

/-- Close the blocks that stand to the right of a column. -/
def unroll (s : TokenStream) (column : Int) : TokenStream :=
  if s.inFlow then s
  else
    let closed := (s.indent :: s.outer).takeWhile (column < ·)
    match (s.indent :: s.outer).drop closed.length with
    | [] => s
    | indent :: outer =>
      { s with
        tokens := s.tokens ++ (closed.map fun _ => Token.blockEnd).toArray
        indent, outer }

/-- Open a block at a column unless one is open there: its token is put at the given place. -/
def roll (s : TokenStream) (column : Nat) (place : Nat) (t : Token) : TokenStream :=
  if !s.inFlow && decide (s.indent < column) then
    TokenStream.insertAt { s with indent := column, outer := s.indent :: s.outer } place t
  else s

/-- Forget the possible key of the innermost bracket. One that is required must not be forgotten. -/
def dropCandidate? (s : TokenStream) : Option TokenStream :=
  match s.candidates with
  | some c :: rest => if c.isRequired then none else some { s with candidates := none :: rest }
  | _ => some s

/-- Forget the possible keys that have become too long. -/
def dropStale? (s : TokenStream) (input : Input) : Option TokenStream :=
  let isStale (c : Candidate) : Bool :=
    match input with
    | a :: _ => decide (c.line < a.line ∨ c.index + keyLimit < a.index)
    | [] => false
  let required := s.candidates.any fun c? => c?.any fun c => isStale c && c.isRequired
  if required then none
  else some { s with candidates := s.candidates.map fun c? => c?.filter fun c => !isStale c }

/-- Remember the next item as a possible key, if a key may begin here. -/
def saveCandidate? (s : TokenStream) (input : Input) : Option TokenStream :=
  if !s.keyAllowed then some s
  else
    match s.dropCandidate?, input with
    | some s, a :: _ =>
      let c : Candidate :=
        { place := s.tokens.size, isRequired := !s.inFlow && s.indent == (a.column : Int)
          line := a.line, column := a.column, index := a.index }
      some { s with candidates := some c :: s.candidates.drop 1 }
    | other, _ => other

/-- A token of one character that ends all possible keys. -/
def mark? (s : TokenStream) (t : Token) (keyAllowed : Bool) (length : Nat) (input : Input) :
    Option (TokenStream × Input) :=
  s.dropCandidate?.map fun s => ({ s.push t with keyAllowed }, input.drop length)

/-- An opening bracket. -/
def openBracket? (s : TokenStream) (t : Token) (input : Input) : Option (TokenStream × Input) :=
  (s.saveCandidate? input).map fun s =>
    ({ s.push t with candidates := none :: s.candidates, keyAllowed := true }, input.drop 1)

/-- A closing bracket. -/
def closeBracket? (s : TokenStream) (t : Token) (input : Input) : Option (TokenStream × Input) :=
  s.dropCandidate?.map fun s =>
    let candidates := if s.inFlow then s.candidates.drop 1 else s.candidates
    ({ s.push t with candidates, keyAllowed := false }, input.drop 1)

/-- A dash or a question mark, which begins an entry or a key of a block. -/
def blockMark? (s : TokenStream) (block t : Token) (keyAllowed : Bool) (input : Input) :
    Option (TokenStream × Input) :=
  if !s.inFlow && !s.keyAllowed then none
  else (s.roll (columnOf input) s.tokens.size block).mark? t keyAllowed 1 input

/-- A colon. It makes a key of the possible key before it. -/
def colon? (s : TokenStream) (input : Input) : Option (TokenStream × Input) :=
  match s.candidates with
  | some c :: rest =>
    let keyed := TokenStream.roll (s.insertAt c.place .key) c.column c.place .blockMapping
    some ({ keyed.push .value with candidates := none :: rest, keyAllowed := false }, input.drop 1)
  | _ =>
    if !s.inFlow && !s.keyAllowed then none
    else
      let rolled := s.roll (columnOf input) s.tokens.size .blockMapping
      some ({ rolled.push .value with keyAllowed := !s.inFlow }, input.drop 1)

/-- An item that can be a key. -/
def item? (s : TokenStream) (input : Input) (found : Option (Token × Input)) :
    Option (TokenStream × Input) :=
  match s.saveCandidate? input, found with
  | some s, some (t, rest) => some ({ s.push t with keyAllowed := false }, rest)
  | _, _ => none

/-- A plain scalar. A key may begin after it if a line break follows. -/
def plainItem? (s : TokenStream) (input : Input) : Option (TokenStream × Input) :=
  match s.saveCandidate? input, plain? s.inFlow (s.indent + 1) input with
  | some s, some p =>
    some ({ s.push (.scalar true (String.ofList p.text)) with keyAllowed := p.broken }, p.rest)
  | _, _ => none

/-- A block scalar. It cannot be a key. -/
def blockItem? (s : TokenStream) (folded : Bool) (input : Input) : Option (TokenStream × Input) :=
  match s.dropCandidate?, block? folded s.indent (input.drop 1) with
  | some s, some (text, rest) =>
    some ({ s.push (.scalar false (String.ofList text)) with keyAllowed := true }, rest)
  | _, _ => none

/-- Whether a plain scalar begins here. -/
def beginsPlain (s : TokenStream) (input : Input) : Bool :=
  let c := peek input 0
  let next := peek input 1
  !(endsWord c || "-?:,[]\x7b\x7d#&*!|>'\"%@\x60".toList.contains c)
    || (c == '-' && !isSpace next)
    || (!s.inFlow && (c == '?' || c == ':') && !endsWord next)

/-- Read the next token, which begins here. -/
def read? (s : TokenStream) (input : Input) : Option (TokenStream × Input) :=
  let c := peek input 0
  let next := peek input 1
  let quotedItem? := s.item? input <| (quoted? c (input.drop 1)).map fun (text, rest) =>
    (.scalar false (String.ofList text), rest)
  if columnOf input = 0 ∧ c = '%' then
    match (s.unroll (-1)).dropCandidate?, directive? (input.drop 1) with
    | some s, some (t, rest) => some ({ s.push t with keyAllowed := false }, rest)
    | _, _ => none
  else if isMarker '-' input then (s.unroll (-1)).mark? .documentStart false 3 input
  else if isMarker '.' input then (s.unroll (-1)).mark? .documentEnd false 3 input
  else if c = '[' then s.openBracket? .flowSequence input
  else if c = '{' then s.openBracket? .flowMapping input
  else if c = ']' then s.closeBracket? .flowSequenceEnd input
  else if c = '}' then s.closeBracket? .flowMappingEnd input
  else if c = ',' then s.mark? .flowEntry true 1 input
  else if c = '-' ∧ endsWord next then s.blockMark? .blockSequence .blockEntry true input
  else if c = '?' ∧ (s.inFlow ∨ endsWord next) then
    s.blockMark? .blockMapping .key (!s.inFlow) input
  else if c = ':' ∧ (s.inFlow ∨ endsWord next) then s.colon? input
  else if c = '*' then
    s.item? input <| (anchorName? (input.drop 1)).map fun (name, rest) => (.alias name, rest)
  else if c = '&' then
    s.item? input <| (anchorName? (input.drop 1)).map fun (name, rest) => (.anchor name, rest)
  else if c = '!' then
    s.item? input <| (tag? s.inFlow input).map fun (t, rest) => (.tag t, rest)
  else if c = '|' ∧ !s.inFlow then s.blockItem? false input
  else if c = '>' ∧ !s.inFlow then s.blockItem? true input
  else if c = '\'' ∨ c = '"' then quotedItem?
  else if s.beginsPlain input then s.plainItem? input
  else none

/-- Read tokens to the end, at most the given number. -/
def readAll? : Nat → TokenStream → Input → Option TokenStream
  | 0, _, _ => none
  | n + 1, s, input =>
    let (s, input) := s.skip false input
    match s.dropStale? input with
    | none => none
    | some s =>
      let s := s.unroll (columnOf input)
      if peek input 0 = endMark then
        (s.unroll (-1)).dropCandidate?.map fun s => s.push .streamEnd
      else
        match s.read? input with
        | none => none
        | some (s, rest) => readAll? n s rest

end TokenStream

/-- The tokens of a text. Each of them but the last one has a character of its own. -/
def tokens? (text : List Char) : Option (List Token) :=
  match inputOf? text with
  | none => none
  | some input => (TokenStream.readAll? (input.length + 1) {} input).map fun s => s.tokens.toList

end TemplateCoverage.Yaml
