import TemplateCoverage.Shell.Source

/-!
# Reading words

A word goes on up to a blank, a line end or an operator that is not quoted. Commands inside of words
are read by a reader that is given, so that this module knows nothing of their grammar.
-/

namespace TemplateCoverage.Shell

/-- Where the pieces that are read stand. -/
inductive WordPlace where
  /-- In a word. -/
  | plain
  /-- Behind the name of a parameter in braces. -/
  | braces
  /-- Between double quotes. -/
  | quotes
  /-- Behind the name of a parameter in braces, in double quotes. -/
  | quotedBraces
  /-- In a document. -/
  | document
  /-- In a sum, inside of the given number of brackets. -/
  | sum (depth : Nat)
  deriving DecidableEq, Repr

/-- Whether texts in a place are quoted. -/
def WordPlace.isQuoted : WordPlace → Bool
  | .plain | .braces => false
  | _ => true

/-- The pieces that have been read, the last one first. -/
structure Gathered where
  pieces : List Piece := []
  quoted : Bool := false

namespace Gathered

/-- Add a text. It joins a text before it that is quoted in the same way. -/
def text (g : Gathered) (t : Bytes) (quoted : Bool) : Gathered :=
  match g.pieces with
  | .text before q :: rest =>
    if q == quoted then { g with pieces := .text (before ++ t) q :: rest }
    else { g with pieces := .text t quoted :: g.pieces }
  | pieces => { g with pieces := .text t quoted :: pieces }

/-- Add a piece. -/
def piece (g : Gathered) (p : Piece) : Gathered :=
  match p with
  | .text t quoted => g.text t quoted
  | p => { g with pieces := p :: g.pieces }

/-- Note that something is quoted. -/
def quote (g : Gathered) : Gathered :=
  { g with quoted := true }

/-- The pieces in order. -/
def word (g : Gathered) : Word :=
  g.pieces.reverse

end Gathered

namespace Reading

/-- Whether a character ends a word that is not in quotes. -/
def endsWord (c : Char) : Bool :=
  " \t\n&|;<>()".toList.contains c

/-- Whether a character is text wherever it stands. -/
def isOrdinary (c : Char) : Bool :=
  c.isAlphanum || "_-./:,=@%+^~[]*?!#\x7b".toList.contains c || 0x80 ≤ c.toNat

/-- Whether a character is the name of a parameter by itself. -/
def isSpecialName (c : Char) : Bool :=
  c.isDigit || "@*#?$!-".toList.contains c

/-- Whether a backslash takes the meaning of a character away in a place. -/
def isEscapable (place : WordPlace) (c : Char) : Bool :=
  match place with
  | .plain | .braces => true
  | .quotes => "\\\x60$\"".toList.contains c
  | .quotedBraces => "\\\x60$\"\x7d".toList.contains c
  | .document | .sum _ => "\\\x60$".toList.contains c

/-- The text up to the closing backquote, with what it may not contain quoted by backslashes. -/
def backquoted (inQuotes : Bool) : Nat → Bytes → Reading Bytes
  | 0, _ => fail "EOF in backquote substitution"
  | n + 1, text => do
    match ← peekJoined? with
    | none => fail "EOF in backquote substitution"
    | some '\x60' =>
      skip 1
      pure text.reverse
    | some '\\' =>
      skip 1
      match ← peek? with
      | none => fail "EOF in backquote substitution"
      | some c =>
        skip 1
        if "\\\x60$".toList.contains c || (inQuotes && c = '"') then backquoted inQuotes n (c :: text)
        else backquoted inQuotes n (c :: '\\' :: text)
    | some c =>
      skip 1
      backquoted inQuotes n (c :: text)

/-- The command between backquotes. Its lines are counted from the first one. -/
def backquote (inner : Bool → Reading Command) (place : WordPlace) : Reading Piece := do
  let text ← backquoted (place = .quotes || place = .quotedBraces)
    ((← get).rest.length + 1) []
  let before ← get
  set { before with rest := text, line := 1, pending := [], pushed := false }
  let body ← inner false
  modify fun s =>
    { s with rest := before.rest, line := before.line, pending := before.pending, pushed := false }
  pure (.output body place.isQuoted)

/-- What is done with a parameter, as it stands behind its name in braces. -/
def parameterUse : Reading ParameterUse := do
  let ifEmpty ← accept ':'
  match ← peekJoined? with
  | some '-' =>
    skip 1
    pure (.orWord ifEmpty)
  | some '=' =>
    skip 1
    pure (.orAssign ifEmpty)
  | some '?' =>
    skip 1
    pure (.orFail ifEmpty)
  | some '+' =>
    skip 1
    pure (.ifSet ifEmpty)
  | some '#' =>
    if ifEmpty then pure .malformed
    else
      skip 1
      pure (.withoutBeginning (← accept '#'))
  | some '%' =>
    if ifEmpty then pure .malformed
    else
      skip 1
      pure (.withoutEnding (← accept '%'))
  | _ => pure .malformed

/-- The name of a parameter in braces. There is none if something else stands there. -/
def bracedName : Reading Bytes := do
  match ← peekJoined? with
  | none => pure []
  | some c =>
    if c.isDigit then takeWhile Char.isDigit
    else if isNameChar c then takeWhile isNameChar
    else if isSpecialName c then
      skip 1
      pure [c]
    else pure []

/-- A parameter behind its opening brace. The word behind its name is read by the reader that is
given. -/
def braced (word : WordPlace → Reading Gathered) (place : WordPlace) : Reading Piece := do
  let quoted := place.isQuoted
  let s ← get
  let isLength :=
    match s.rest with
    | '#' :: c :: _ => c = '_' || c.isAlphanum || (isSpecialName c && (s.rest.drop 2).head? = some '}')
    | _ => false
  if isLength then skip 1
  let name ← bracedName
  let next? ← peekJoined?
  let plainWord : WordPlace := if quoted then .quotedBraces else .braces
  if !name.isEmpty && next? = some '}' then
    skip 1
    pure (.parameter name (if isLength then .length else .value) [] quoted)
  else if name.isEmpty || isLength then
    let w ← word plainWord
    pure (.parameter name .malformed w.word quoted)
  else
    let use ← parameterUse
    let w ← word (match use with
      | .withoutBeginning _ | .withoutEnding _ => .braces
      | _ => plainWord)
    pure (.parameter name use w.word quoted)

/-- What stands behind a dollar sign. -/
def dollar (inner : Bool → Reading Command) (word : WordPlace → Reading Gathered)
    (place : WordPlace) : Reading Piece := do
  let quoted := place.isQuoted
  match ← peekJoined? with
  | some '(' =>
    skip 1
    if ← accept '(' then
      let w ← word (.sum 0)
      pure (.sum w.word quoted)
    else
      let before ← get
      set { before with pending := [], pushed := false }
      let body ← inner true
      modify fun s => { s with pending := before.pending, pushed := false }
      pure (.output body quoted)
  | some '{' =>
    skip 1
    braced word place
  | some c =>
    if isNameChar c && !c.isDigit then
      pure (.parameter (← takeWhile isNameChar) .value [] quoted)
    else if isSpecialName c then
      skip 1
      pure (.parameter [c] .value [] quoted)
    else pure (.text ['$'] quoted)
  | none => pure (.text ['$'] quoted)

/-- Read pieces in a place up to its end, for a number of steps at most. -/
def pieces (inner : Bool → Reading Command) : Nat → WordPlace → Gathered → Reading Gathered
  | 0, _, g => pure g
  | n + 1, place, g => do
    match ← peekJoined?, place with
    | none, .plain | none, .document => pure g
    | none, .quotes => fail "Unterminated quoted string"
    | none, .sum _ => fail "Missing '))'"
    | none, _ => fail "Missing '\x7d'"
    | some c, _ =>
      if isOrdinary c then
        let run ← takeWhile isOrdinary
        pieces inner n place (g.text run place.isQuoted)
      else if place = .plain && endsWord c then pure g
      else if place = .braces && c = '\n' then fail "Missing '\x7d'"
      else
        skip 1
        match c, place with
        | '}', .braces | '}', .quotedBraces | '"', .quotes => pure g
        | '\'', .plain | '\'', .braces =>
          let text ← takeWhile (· ≠ '\'')
          if (← peek?).isNone then fail "Unterminated quoted string"
          skip 1
          pieces inner n place (g.quote.text text true)
        | '"', .plain | '"', .braces =>
          let within ← pieces inner n .quotes {}
          let isAll := match within.word with
            | [.parameter ['@'] .value [] true] => true
            | _ => false
          let start := if isAll then g.quote else g.quote.text [] true
          pieces inner n place (within.word.foldl Gathered.piece start)
        | '"', .quotedBraces =>
          let within ← pieces inner n .quotes {}
          pieces inner n place (within.word.foldl Gathered.piece g)
        | '\\', _ =>
          match ← peek? with
          | none => pieces inner n place (g.quote.text ['\\'] true)
          | some d =>
            if isEscapable place d then
              skip 1
              pieces inner n place (g.quote.text [d] true)
            else pieces inner n place (g.text ['\\'] true)
        | '$', _ =>
          let p ← dollar inner (fun place => pieces inner n place {}) place
          pieces inner n place (g.piece p)
        | '\x60', _ =>
          let p ← backquote inner place
          pieces inner n place (g.piece p)
        | '(', .sum depth => pieces inner n (.sum (depth + 1)) (g.text ['('] true)
        | ')', .sum 0 =>
          if ← accept ')' then pure g else pieces inner n place (g.text [')'] true)
        | ')', .sum (depth + 1) => pieces inner n (.sum depth) (g.text [')'] true)
        | c, _ => pieces inner n place (g.text [c] place.isQuoted)

/-- Read pieces in a place up to its end. -/
def piecesIn (inner : Bool → Reading Command) (place : WordPlace) : Reading Gathered := do
  pieces inner (2 * (← get).rest.length + 2) place {}

/-! ### Documents -/

/-- Whether a line ends in a backslash that is not quoted by another one. -/
def goesOn (line : Bytes) : Bool :=
  ((line.reverse.takeWhile (· = '\\')).length) % 2 = 1

/-- The text of a document and the number of its lines with the mark, from a list of lines. A line
that belongs to the one before it is not taken for the mark. -/
def documentText (d : PendingDocument) : Bool → List Bytes → Bytes × Nat
  | _, [] => ([], 0)
  | joined, line :: rest =>
    let kept := if d.stripsTabs && !joined then line.dropWhile (· = '\t') else line
    if !joined && kept = d.mark then ([], 1)
    else
      let (text, n) := documentText d (!d.quoted && goesOn kept) rest
      (kept ++ (if rest.isEmpty then [] else ['\n']) ++ text, n + 1)

/-- Read the documents that have been announced. -/
def readDocuments (inner : Bool → Reading Command) : Reading Unit := do
  let pending := (← get).pending
  modify fun s => { s with pending := [] }
  for d in pending do
    let before ← get
    let lines := Bytes.split '\n' before.rest
    let (text, n) := documentText d false lines
    let taken := (lines.take n).foldl (fun m l => m + l.length + 1) 0
    let body : Word ←
      if d.quoted then pure [.text text true]
      else
        set { before with rest := text }
        let g ← piecesIn inner .document
        pure g.word
    modify fun s =>
      { s with rest := before.rest.drop taken, line := before.line + n
               documents := s.documents ++ [(d.number, body)] }

/-! ### Tokens -/

/-- Announce a token as the last one. -/
def found (t : Token) : Reading Token := do
  modify fun s => { s with last := t, pushed := false }
  pure t

/-- The sign of a redirection. -/
def redirectSign : Reading (Nat × RedirectSign) := do
  if ← accept '>' then
    if ← accept '>' then pure (1, .file .append)
    else if ← accept '|' then pure (1, .file .force)
    else if ← accept '&' then pure (1, .copy)
    else pure (1, .file .write)
  else
    skip 1
    if ← accept '<' then pure (0, .document (← accept '-'))
    else if ← accept '&' then pure (0, .copy)
    else if ← accept '>' then pure (0, .file .readWrite)
    else pure (0, .file .read)

/-- Leave out blanks and a comment. -/
def skipBlanks : Nat → Reading Unit
  | 0 => pure ()
  | n + 1 => do
    match ← peekJoined? with
    | some '#' => discard (takeWhile (· ≠ '\n'))
    | some c =>
      if c = ' ' ∨ c = '\t' then
        skip 1
        skipBlanks n
    | none => pure ()

/-- Read a token as it stands in the text. -/
def freshToken (inner : Bool → Reading Command) : Reading Token := do
  skipBlanks ((← get).rest.length + 1)
  let operator (one two : Operator) (second : Char) : Reading Token := do
    skip 1
    if ← accept second then found (.operator two) else found (.operator one)
  match ← peek? with
  | none => found .ending
  | some '\n' =>
    skip 1
    found .newline
  | some '&' => operator .ampersand .and '&'
  | some '|' => operator .pipe .or '|'
  | some ';' => operator .semicolon .endCase ';'
  | some '(' =>
    skip 1
    found (.operator .opening)
  | some ')' =>
    skip 1
    found (.operator .closing)
  | some _ =>
    let g ← piecesIn inner .plain
    let isSign := (← peek?).any fun c => c = '<' || c = '>'
    match g.word.literal?, isSign && !g.quoted with
    | some [], true =>
      let (descriptor, sign) ← redirectSign
      found (.redirect descriptor sign)
    | some [d], true =>
      if d.isDigit then
        let (_, sign) ← redirectSign
        found (.redirect (d.toNat - '0'.toNat) sign)
      else found (.word g.word g.quoted)
    | _, _ => found (.word g.word g.quoted)

/-- Read a token, or the last one once more. -/
def anyToken (inner : Bool → Reading Command) : Reading Token := do
  let s ← get
  if s.pushed then
    set { s with pushed := false }
    pure s.last
  else freshToken inner

/-- Read tokens up to one that is not a line end. Documents come before the next line. -/
def afterNewlines (inner : Bool → Reading Command) : Nat → Token → Reading Token
  | 0, t => pure t
  | n + 1, .newline => do
    readDocuments inner
    afterNewlines inner n (← anyToken inner)
  | _, t => pure t

/-- Read a token. Line ends are left out and keywords are recognized on request. -/
def token (inner : Bool → Reading Command) (skipsLines keywords : Bool) : Reading Token := do
  let t ← anyToken inner
  let t ← if skipsLines then afterNewlines inner ((← get).rest.length + 1) t else pure t
  match t with
  | .word w false =>
    if keywords then
      match w.literal?.bind fun text => Keyword.all.lookup (String.ofList text) with
      | some k => found (.keyword k)
      | none => pure t
    else pure t
  | t => pure t

end Reading

end TemplateCoverage.Shell
