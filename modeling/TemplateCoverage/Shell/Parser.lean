import TemplateCoverage.Shell.WordReader

/-!
# Reading commands

The grammar of scripts. Each reader of this module takes the reader of the commands inside of its
own, so that only `command` is recursive, by the number of commands that may be inside of each
other.
-/

namespace TemplateCoverage.Shell

/-- Where a list of commands stands. -/
inductive ListPlace where
  /-- The list is a line of a script. -/
  | line
  /-- The list is not empty and goes over lines. -/
  | block
  /-- The list goes over lines and may be empty. -/
  | open
  deriving DecidableEq, Repr

/-- The names of functions that cannot be defined. -/
def reservedNames : List String :=
  [".", ":", "break", "continue", "eval", "exec", "exit", "export", "readonly", "return", "set",
    "shift", "times", "trap", "unset"]

/-- The readers of commands inside of others. -/
structure Inner where
  /-- A list of commands in the place of a word. A bracket closes it on request. -/
  output : Bool → Reading Command
  /-- A command behind tokens that are read with or without line ends and keywords. -/
  command : Bool → Bool → Reading Command

namespace Reading

/-- One command after another. -/
def followed (before? : Option Command) (next : Command) : Command :=
  match before? with
  | none => next
  | some before => .sequence before next

/-- Expect a token. -/
def expect (inner : Inner) (skipsLines keywords : Bool) (wanted : Token)
    (fits : Token → Bool) : Reading Unit := do
  if fits (← token inner.output skipsLines keywords) then pure ()
  else unexpected (some wanted)

/-- Expect a keyword. -/
def expectKeyword (inner : Inner) (skipsLines keywords : Bool) (k : Keyword) : Reading Unit :=
  expect inner skipsLines keywords (.keyword k) fun t => match t with
    | .keyword found => found = k
    | _ => false

/-! ### Redirections -/

/-- The word behind the sign of a redirection. -/
def redirection (inner : Inner) (descriptor : Nat) (sign : RedirectSign) : Reading Redirection := do
  match ← token inner.output false false with
  | .word w quoted =>
    match sign with
    | .file mode => pure (.toFile descriptor mode w)
    | .copy => pure (.copy descriptor w)
    | .document stripsTabs =>
      let number := (← get).nextNumber
      let mark := w.flatMap fun p => match p with
        | .text t _ => t
        | .parameter name _ _ _ => '$' :: name
        | _ => []
      modify fun s =>
        { s with nextNumber := number + 1
                 pending := s.pending ++ [{ number, mark, quoted, stripsTabs }] }
      pure (.document descriptor number)
  | _ => unexpected none

/-- The redirections behind a command. -/
def redirections (inner : Inner) : Nat → Reading (List Redirection)
  | 0 => pure []
  | n + 1 => do
    match ← token inner.output false true with
    | .redirect descriptor sign =>
      let r ← redirection inner descriptor sign
      pure (r :: (← redirections inner n))
    | _ =>
      pushBack
      pure []

/-! ### Simple commands -/

/-- The parts of a simple command that have been read, the last ones first. -/
structure SimpleParts where
  assignments : List Word := []
  words : List Word := []
  redirections : List Redirection := []

/-- Read a simple command, or the definition of a function. -/
def simple (inner : Inner) (line : Nat) : Nat → SimpleParts → Reading Command
  | 0, _ => pure .skip
  | n + 1, parts => do
    match ← token inner.output false false with
    | .word w _ =>
      if parts.words.isEmpty && w.isAssignment then
        simple inner line n { parts with assignments := w :: parts.assignments }
      else simple inner line n { parts with words := w :: parts.words }
    | .redirect descriptor sign =>
      let r ← redirection inner descriptor sign
      simple inner line n { parts with redirections := r :: parts.redirections }
    | t =>
      let isOpening := match t with
        | .operator .opening => true
        | _ => false
      match parts.words, isOpening && parts.assignments.isEmpty && parts.redirections.isEmpty with
      | [w], true =>
        expect inner false false (.operator .closing) fun t => match t with
          | .operator .closing => true
          | _ => false
        match w.literal? with
        | some name =>
          if !isName name || reservedNames.contains (String.ofList name) then
            fail "Bad function name"
          let line := (← get).line
          pure (.define line name (← inner.command true true))
        | none => fail "Bad function name"
      | _, _ =>
        pushBack
        pure (.simple line parts.assignments.reverse parts.words.reverse
          parts.redirections.reverse)

/-! ### Pipelines and lists -/

/-- The parts of a pipeline behind the first one. -/
def pipes (inner : Inner) : Nat → Reading (List Command)
  | 0 => pure []
  | n + 1 => do
    match ← token inner.output false false with
    | .operator .pipe =>
      let next ← inner.command true true
      pure (next :: (← pipes inner n))
    | _ =>
      pushBack
      pure []

/-- Read a pipeline. -/
def pipeline (inner : Inner) (skipsLines keywords : Bool) : Reading Command := do
  let negated ← match ← token inner.output skipsLines keywords with
    | .keyword .negate => pure true
    | _ =>
      pushBack
      pure false
  let first ← inner.command false negated
  let rest ← pipes inner ((← get).rest.length + 1)
  let c := if rest.isEmpty then first else .pipeline (first :: rest)
  pure (if negated then .negation c else c)

/-- Read the pipelines that depend on those before them. -/
def conditional (inner : Inner) : Nat → Command → Reading Command
  | 0, c => pure c
  | n + 1, c => do
    match ← token inner.output false false with
    | .operator .and => conditional inner n (.both c (← pipeline inner true true))
    | .operator .or => conditional inner n (.either c (← pipeline inner true true))
    | _ =>
      pushBack
      pure c

/-- Read a list of commands, for a number of commands at most. There is none at the end of a
script. -/
def listFrom (inner : Inner) (place : ListPlace) : Nat → Option Command → Reading (Option Command)
  | 0, before? => pure before?
  | n + 1, before? => do
    let isLine := place = .line
    match ← token inner.output (!isLine) true with
    | .newline =>
      readDocuments inner.output
      pure (some (before?.getD .skip))
    | .ending =>
      readDocuments inner.output
      discard (found .ending)
      pushBack
      pure (if isLine then before? else some (before?.getD .skip))
    | t =>
      pushBack
      let mayEnd := place = .open || (place = .block && before?.isSome)
      if mayEnd && t.endsList then pure (some (before?.getD .skip))
      else
        let first ← pipeline inner false false
        let c ← conditional inner ((← get).rest.length + 1) first
        match ← token inner.output false false with
        | .operator .ampersand => listFrom inner place n (some (followed before? (.background c)))
        | .operator .semicolon => listFrom inner place n (some (followed before? c))
        | .newline =>
          pushBack
          listFrom inner place n (some (followed before? c))
        | .ending =>
          readDocuments inner.output
          discard (found .ending)
          pushBack
          pure (some (followed before? c))
        | _ =>
          if isLine then unexpected none
          pushBack
          pure (some (followed before? c))

/-- Read a list of commands. -/
def list? (inner : Inner) (place : ListPlace) : Reading (Option Command) := do
  listFrom inner place ((← get).rest.length + 2) none

/-- Read a list of commands that goes over lines. -/
def block (inner : Inner) (place : ListPlace) : Reading Command := do
  pure ((← list? inner place).getD .skip)

/-! ### Compound commands -/

/-- Read what follows the condition of a branch. -/
def branches (inner : Inner) : Nat → Reading Command
  | 0 => pure .skip
  | n + 1 => do
    let condition ← block inner .block
    expectKeyword inner false false .yes
    let yes ← block inner .block
    match ← token inner.output false false with
    | .keyword .elseIf => pure (.branch condition yes (← branches inner n))
    | .keyword .otherwise => pure (.branch condition yes (← block inner .block))
    | _ =>
      pushBack
      pure (.branch condition yes .skip)

/-- Read the words of a loop up to the end of their line. -/
def loopWords (inner : Inner) : Nat → List Word → Reading (List Word)
  | 0, words => pure words.reverse
  | n + 1, words => do
    match ← token inner.output false false with
    | .word w _ => loopWords inner n (w :: words)
    | .newline | .operator .semicolon => pure words.reverse
    | _ => unexpected none

/-- Read a loop over words. -/
def eachLoop (inner : Inner) (line : Nat) : Reading Command := do
  let name ← match ← token inner.output false false with
    | .word w false =>
      match w.literal? with
      | some name => if isName name then pure name else fail "Bad for loop variable"
      | none => fail "Bad for loop variable"
    | _ => fail "Bad for loop variable"
  let words ← match ← token inner.output true true with
    | .keyword .among => loopWords inner ((← get).rest.length + 1) []
    | .operator .semicolon => pure [[.parameter ['@'] .value [] true]]
    | _ =>
      pushBack
      pure [[.parameter ['@'] .value [] true]]
  expectKeyword inner true true .begin
  pure (.each line name words (← block inner .block))

/-- Read the patterns of a case behind its first token, up to the closing bracket. -/
def casePatterns (inner : Inner) : Nat → Token → List Word → Reading (List Word)
  | 0, _, words => pure words.reverse
  | n + 1, t, words => do
    let words := match t with
      | .word w _ => w :: words
      | .keyword k => [Piece.text (Bytes.ofText k.text) false] :: words
      | _ => words
    match ← token inner.output false false with
    | .operator .pipe => casePatterns inner n (← token inner.output false false) words
    | .operator .closing => pure words.reverse
    | _ => unexpected (some (.operator .closing))

/-- Read the cases of a choice. -/
def cases (inner : Inner) : Nat → Reading (List (List Word × Command))
  | 0 => pure []
  | n + 1 => do
    match ← token inner.output true true with
    | .keyword .endChoose => pure []
    | t =>
      let first ← match t with
        | .operator .opening => token inner.output false false
        | t => pure t
      let patterns ← casePatterns inner ((← get).rest.length + 1) first []
      let body ← block inner .open
      match ← token inner.output true true with
      | .keyword .endChoose => pure [(patterns, body)]
      | .operator .endCase => pure ((patterns, body) :: (← cases inner n))
      | _ => unexpected (some (.operator .endCase))

/-- Read a choice. -/
def choice (inner : Inner) (line : Nat) : Reading Command := do
  let subject ← match ← token inner.output false false with
    | .word w _ => pure w
    | _ => unexpected (some (.word [] false))
  expectKeyword inner true true .among
  pure (.choose line subject (← cases inner ((← get).rest.length + 1)))

/-- Read a command. -/
def commandWith (inner : Inner) (skipsLines keywords : Bool) : Reading Command := do
  let line := (← get).line
  let closed (k : Keyword) (c : Command) : Reading (Option Command) := do
    expectKeyword inner false false k
    pure (some c)
  let compound? ← match ← token inner.output skipsLines keywords with
    | .keyword .branch =>
      closed .endIf (← branches inner ((← get).rest.length + 1))
    | .keyword .whileGood => do
      let condition ← block inner .block
      expectKeyword inner false false .begin
      closed .done (.loop false condition (← block inner .block))
    | .keyword .untilGood => do
      let condition ← block inner .block
      expectKeyword inner false false .begin
      closed .done (.loop true condition (← block inner .block))
    | .keyword .each => closed .done (← eachLoop inner line)
    | .keyword .choose => pure (some (← choice inner line))
    | .keyword .opening => closed .closing (← block inner .block)
    | .operator .opening => do
      let body ← block inner .block
      expect inner false false (.operator .closing) fun t => match t with
        | .operator .closing => true
        | _ => false
      pure (some (.subshell line body []))
    | .word _ _ | .redirect _ _ => pure none
    | _ => unexpected none
  match compound? with
  | none =>
    pushBack
    simple inner (← get).line ((← get).rest.length + 2) {}
  | some c =>
    let rs ← redirections inner ((← get).rest.length + 1)
    match c, rs with
    | c, [] => pure c
    | .subshell line body _, rs => pure (.subshell line body rs)
    | c, rs => pure (.redirected line c rs)

/-- The readers for commands inside of others, up to a depth. -/
def innerReaders : Nat → Inner
  | 0 => { output := fun _ => pure .skip, command := fun _ _ => pure .skip }
  | depth + 1 =>
    { output := fun closes => do
        let c ← block (innerReaders depth) .open
        if closes then
          expect (innerReaders depth) false false (.operator .closing) fun t => match t with
            | .operator .closing => true
            | _ => false
        readDocuments (innerReaders depth).output
        pure c
      command := fun skipsLines keywords => commandWith (innerReaders depth) skipsLines keywords }

/-- Read a line of a script with all that belongs to its commands. There is none at the end. -/
def scriptLine? : Reading (Option Command) := do
  modify fun s => { s with pushed := false, pending := [] }
  let inner := innerReaders ((← get).rest.length + 2)
  list? inner .line

end Reading

end TemplateCoverage.Shell
