import TemplateCoverage.Regex.Reader
import TemplateCoverage.Utility.Sed.Basic

/-!
# Reading edit scripts

Commands are single letters with what they need behind them; they end with their lines or at
semicolons. A script with a fault is refused with the number of characters read up to it.
-/

namespace TemplateCoverage.Utility.Sed

/-- What is left of a script, and how many characters were read. -/
structure Remaining where
  text : Bytes
  index : Nat := 0

/-- A fault in a script, with the number of characters before it. -/
structure Fault where
  index : Nat
  message : Bytes

/-- Reading a part of a script. -/
abbrev Reading := StateT Remaining (Except Fault)

/-- Refuse the script. -/
def refuse {α : Type} (message : Bytes) : Reading α := do
  throw ⟨(← get).index, message⟩

/-- The next character. -/
def peek? : Reading (Option Char) := do
  return (← get).text.head?

/-- Go on by a number of characters. -/
def advance (n : Nat) : Reading Unit :=
  modify fun r => { text := r.text.drop n, index := r.index + min n r.text.length }

/-- Take the characters up to the first one that `stop` picks. -/
def takeUntil (stop : Char → Bool) : Reading Bytes := do
  let taken := (← get).text.takeWhile fun c => !stop c
  advance taken.length
  pure taken

/-- Skip blanks other than line ends. -/
def skipSpaces : Reading Unit := do
  discard (takeUntil fun c => c == '\n' || !Bytes.isBlank c)

/-- Read a number, if digits come next. -/
def number? : Reading (Option Nat) := do
  return Bytes.nat? (← takeUntil fun c => !c.isDigit)

/-! ### Delimited texts -/

/-- The length of a bracket expression from behind its opening bracket on, the closing one
included. -/
def bracketLength? (text : Bytes) : Option Nat :=
  let front := if text.head? = some '^' then 1 else 0
  let front := if (text.drop front).head? = some ']' then front + 1 else front
  let rec go : Nat → Bytes → Option Nat
    | _, [] => none
    | n, '[' :: ':' :: rest => go (n + 2) rest
    | n, ':' :: ']' :: rest => go (n + 2) rest
    | n, ']' :: _ => some (n + 1)
    | _, '\n' :: _ => none
    | n, _ :: rest => go (n + 1) rest
  go front (text.drop front)

/-- The text up to a delimiter. In an expression, `\n` is a line end and brackets hide the
delimiter. -/
def delimited? (delimiter : Char) (isExpression : Bool) : Nat → Reading (Option Bytes)
  | 0 => pure none
  | n + 1 => do
    let more (front : Bytes) (length : Nat) : Reading (Option Bytes) := do
      advance length
      return (← delimited? delimiter isExpression n).map (front ++ ·)
    match (← get).text with
    | [] => pure none
    | '\\' :: '\n' :: _ => more (if isExpression then ['\n'] else ['\\', '\n']) 2
    | '\\' :: c :: _ =>
      if c = delimiter then
        more (if !isExpression && c == '&' then ['\\', c] else [c]) 2
      else if c = 'n' && isExpression then more ['\n'] 2
      else more ['\\', c] 2
    | '\n' :: _ => pure none
    | c :: rest =>
      if c = delimiter then
        advance 1
        pure (some [])
      else if c = '[' && isExpression then
        match bracketLength? rest with
        | some length => more (c :: rest.take length) (length + 1)
        | none => more [c] 1
      else more [c] 1

/-- A text with the escapes of control characters replaced. -/
def withControls : Bytes → Bytes
  | '\\' :: c :: rest =>
    match c with
    | 't' => '\t' :: withControls rest
    | 'f' => '\x0c' :: withControls rest
    | 'v' => '\x0b' :: withControls rest
    | 'a' => '\x07' :: withControls rest
    | 'r' => '\r' :: withControls rest
    | c => '\\' :: c :: withControls rest
  | c :: rest => c :: withControls rest
  | [] => []

/-- The test for an expression with flags. -/
def testOf (extended : Bool) (expression : Bytes) (mode : Regex.Mode) : Reading LineTest := do
  if expression.isEmpty then pure { expression? := none, mode }
  else
    match Regex.read extended (withControls expression) with
    | .ok e => pure { expression? := some e, mode }
    | .error e => refuse e.message

/-- Read the flags behind an expression of an address. -/
def addressMode : Nat → Regex.Mode → Reading Regex.Mode
  | 0, mode => pure mode
  | n + 1, mode => do
    match ← peek? with
    | some 'I' =>
      advance 1
      addressMode n { mode with ignoreCase := true }
    | some 'M' =>
      advance 1
      addressMode n { mode with multiline := true }
    | _ => pure mode

/-- Read the expression of an address, from behind its first delimiter on. -/
def addressTest (extended : Bool) (delimiter : Char) : Reading LineTest := do
  match ← delimited? delimiter true ((← get).text.length + 1) with
  | none => refuse "unterminated address regex"
  | some expression =>
    let mode ← addressMode 3 {}
    testOf extended expression mode

/-! ### Addresses -/

/-- An address, and whether it is the number zero. -/
def address? (extended : Bool) : Reading (Option (Address × Bool)) := do
  match (← get).text with
  | '/' :: _ =>
    advance 1
    return some (.matching (← addressTest extended '/'), false)
  | '\\' :: c :: _ =>
    advance 2
    return some (.matching (← addressTest extended c), false)
  | '$' :: _ =>
    advance 1
    return some (.last, false)
  | _ =>
    match ← number? with
    | none => pure none
    | some n =>
      skipSpaces
      match ← peek? with
      | some '~' =>
        advance 1
        return some (.every n ((← number?).getD 0), false)
      | _ => return some (.line n, n == 0)

/-- The end of a range, behind the comma. -/
def rangeEnd (extended : Bool) : Reading RangeEnd := do
  skipSpaces
  match ← peek? with
  | some '+' =>
    advance 1
    match ← number? with
    | some n => return .after n
    | none => refuse "expected number after +"
  | some '~' =>
    advance 1
    return .multipleOf ((← number?).getD 0)
  | _ =>
    match ← address? extended with
    | some (.line n, _) => return .line n
    | some (.last, _) => return .last
    | some (.matching t, _) => return .matching t
    | some (.every first _, _) => return .line first
    | none => refuse "unexpected \x60,'"

/-! ### Commands -/

/-- The end of a command: its line's end, a semicolon or what can follow it directly. -/
def commandEnd : Reading Unit := do
  skipSpaces
  match ← peek? with
  | none | some '}' | some '#' => pure ()
  | some '\n' | some ';' => advance 1
  | some _ =>
    advance 1
    refuse "extra characters after command"

/-- The name of a label. -/
def labelName : Reading Bytes := do
  skipSpaces
  takeUntil fun c => c == ';' || Bytes.isBlank c

/-- The name of a file, which takes the rest of the line. -/
def fileName : Reading Bytes := do
  skipSpaces
  match ← takeUntil (· == '\n') with
  | [] => refuse "missing filename in r/R/w/W commands"
  | name => pure name

/-- The lines of a text, of which all but the last one end with a backslash. -/
def textLines : Bytes → Bytes × Nat
  | [] => ([], 0)
  | ['\\'] => ([], 1)
  | '\\' :: c :: rest =>
    let (text, n) := textLines rest
    (c :: text, n + 2)
  | '\n' :: _ => ([], 1)
  | c :: rest =>
    let (text, n) := textLines rest
    (c :: text, n + 1)

/-- The text of a command that writes a text. -/
def textArgument : Reading Bytes := do
  skipSpaces
  match (← get).text with
  | [] => refuse "expected \\ after \x60a', \x60c' or \x60i'"
  | '\\' :: rest =>
    let body := rest.dropWhile fun c => c == ' ' || c == '\t'
    match body with
    | '\n' :: _ => advance (2 + (rest.length - body.length))
    | _ => advance 1
    if (← get).text.isEmpty then refuse "expected \\ after \x60a', \x60c' or \x60i'"
  | _ => pure ()
  let (text, length) := textLines (← get).text
  advance length
  pure (text ++ "\n")

/-- The parts of a replacement. -/
def replacementParts : Bytes → List Replacement
  | [] => []
  | '\\' :: c :: rest =>
    let part : Replacement :=
      match c with
      | 'n' => .text "\n"
      | 't' => .text "\t"
      | 'r' => .text "\r"
      | 'f' => .text "\x0c"
      | 'v' => .text "\x0b"
      | 'a' => .text "\x07"
      | 'U' => .change .upper
      | 'L' => .change .lower
      | 'u' => .change .upperNext
      | 'l' => .change .lowerNext
      | 'E' => .change .stop
      | c => if c.isDigit then .group (c.toNat - '0'.toNat) else .text [c]
    part :: replacementParts rest
  | '&' :: rest => .group 0 :: replacementParts rest
  | c :: rest => .text [c] :: replacementParts rest

/-- The number of groups of an expression. -/
def groupCount : Regex → Nat
  | .append a b | .either a b => max (groupCount a) (groupCount b)
  | .repeated e _ _ => groupCount e
  | .group n e => max n (groupCount e)
  | _ => 0

/-- The flags of a substitution. -/
def substitutionFlags : Nat → Substitution → Reading Substitution
  | 0, s => pure s
  | n + 1, s => do
    match ← peek? with
    | some 'g' =>
      advance 1
      if s.all then refuse "multiple \x60g' options to \x60s' command"
      else substitutionFlags n { s with all := true }
    | some 'p' =>
      advance 1
      if s.prints then refuse "multiple \x60p' options to \x60s' command"
      else substitutionFlags n { s with prints := true }
    | some 'i' | some 'I' =>
      advance 1
      let mode := { s.test.mode with ignoreCase := true }
      substitutionFlags n { s with test := { s.test with mode } }
    | some 'm' | some 'M' =>
      advance 1
      let mode := { s.test.mode with multiline := true }
      substitutionFlags n { s with test := { s.test with mode } }
    | some 'w' =>
      advance 1
      return { s with file? := some (← fileName) }
    | some '\n' | some ';' =>
      advance 1
      pure s
    | none | some '}' | some '#' => pure s
    | some c =>
      if c.isDigit then
        match ← number? with
        | some 0 => refuse "number option to \x60s' command may not be zero"
        | count => substitutionFlags n { s with first := count.getD 1 }
      else if Bytes.isBlank c then
        advance 1
        substitutionFlags n s
      else
        advance 1
        refuse "unknown option to \x60s'"

/-- A substitution, from behind its letter on. -/
def substitution (extended : Bool) : Reading Substitution := do
  match ← peek? with
  | none | some '\n' | some '\\' => refuse "unterminated \x60s' command"
  | some delimiter =>
    advance 1
    let limit := (← get).text.length + 1
    match ← delimited? delimiter true limit with
    | none => refuse "unterminated \x60s' command"
    | some expression =>
      match ← delimited? delimiter false limit with
      | none => refuse "unterminated \x60s' command"
      | some replacement =>
        let parts := replacementParts replacement
        let s ← substitutionFlags limit { test := { expression? := none }, replacement := parts }
        let test ← testOf extended expression s.test.mode
        let highest := (parts.filterMap fun p => match p with
          | .group n => some n
          | _ => none).foldl max 0
        match test.expression? with
        | some e =>
          if groupCount e < highest then
            refuse ("invalid reference \\" ++ Bytes.ofNat highest ++ " on \x60s' command's RHS")
          else pure { s with test }
        | none => pure { s with test }

/-- A text with its escapes replaced, for single characters. -/
def plainChars : Bytes → Bytes
  | '\\' :: 'n' :: rest => '\n' :: plainChars rest
  | '\\' :: 't' :: rest => '\t' :: plainChars rest
  | '\\' :: '\\' :: rest => '\\' :: plainChars rest
  | c :: rest => c :: plainChars rest
  | [] => []

/-- A translation of characters, from behind its letter on. -/
def translation : Reading (List (Char × Char)) := do
  match ← peek? with
  | none | some '\n' | some '\\' => refuse "unterminated \x60y' command"
  | some delimiter =>
    advance 1
    let limit := (← get).text.length + 1
    match ← delimited? delimiter false limit with
    | none => refuse "unterminated \x60y' command"
    | some source =>
      match ← delimited? delimiter false limit with
      | none => refuse "unterminated \x60y' command"
      | some target =>
        let (source, target) := (plainChars source, plainChars target)
        if source.length ≠ target.length then
          refuse "strings for \x60y' command are different lengths"
        else
          commandEnd
          pure (source.zip target)

/-- The exit code behind a command that ends the editing. -/
def exitCode : Reading Nat := do
  skipSpaces
  let code := (← number?).getD 0
  commandEnd
  pure code

/-- A command that is a letter alone. -/
def simpleAction? (c : Char) : Option Action :=
  match c with
  | 'd' => some .delete
  | 'D' => some .deleteFirst
  | 'p' => some .print
  | 'P' => some .printFirst
  | 'n' => some .next
  | 'N' => some .appendNext
  | 'h' => some .hold
  | 'H' => some .holdAppend
  | 'g' => some .get
  | 'G' => some .getAppend
  | 'x' => some .exchange
  | 'z' => some .clear
  | '=' => some .lineNumber
  | 'l' => some .list
  | _ => none

/-- What a command does, from its letter on. -/
def action (extended : Bool) : Reading Action := do
  match ← peek? with
  | none | some '\n' | some ';' => refuse "missing command"
  | some c =>
    advance 1
    match simpleAction? c with
    | some a =>
      commandEnd
      pure a
    | none =>
      match c with
      | '{' => pure .opening
      | '}' =>
        commandEnd
        pure .closing
      | 's' => return .substitute (← substitution extended)
      | 'y' => return .translate (← translation)
      | 'q' => return .quit true (← exitCode)
      | 'Q' => return .quit false (← exitCode)
      | 'a' => return .append (← textArgument)
      | 'i' => return .insert (← textArgument)
      | 'c' => return .change (← textArgument)
      | 'r' => return .readFile (← fileName)
      | 'w' => return .writeFile (← fileName)
      | ':' =>
        match ← labelName with
        | [] => refuse "\":\" lacks a label"
        | name =>
          commandEnd
          pure (.label name)
      | 'b' =>
        let name ← labelName
        commandEnd
        pure (.jump name)
      | 't' =>
        let name ← labelName
        commandEnd
        pure (.jumpIf name)
      | 'T' =>
        let name ← labelName
        commandEnd
        pure (.jumpUnless name)
      | c => refuse ("unknown command: \x60" ++ [c] ++ "'")

/-- A command with its addresses. -/
def command (extended : Bool) : Reading Command := do
  let first? ← address? extended
  skipSpaces
  let isRange := first?.isSome && (← peek?) == some ','
  if isRange then advance 1
  let last? ← if isRange then (fun r => some r) <$> rangeEnd extended else pure none
  let fromZero := (first?.map (·.2)).getD false
  let endsByTest := match last? with
    | some (.matching _) => true
    | _ => false
  if fromZero && !endsByTest then
    advance 1
    refuse "invalid usage of line address 0"
  else
    skipSpaces
    let negated := (← peek?) == some '!'
    if negated then advance 1
    skipSpaces
    return { first? := first?.map (·.1), fromZero, last?, negated, action := ← action extended }

/-- Read commands to the end of the script. Given are those before, the last one first, and the
number of blocks that are open. -/
def commands (extended : Bool) : Nat → Nat → List Command → Reading (List Command)
  | 0, _, found => pure found.reverse
  | n + 1, depth, found => do
    discard (takeUntil fun c => !(Bytes.isBlank c || c == ';'))
    match ← peek? with
    | none => if depth = 0 then pure found.reverse else throw ⟨0, "unmatched \x60\x7b'"⟩
    | some '#' =>
      discard (takeUntil (· == '\n'))
      commands extended n depth found
    | some _ =>
      let c ← command extended
      match c.action with
      | .opening => commands extended n (depth + 1) (c :: found)
      | .closing =>
        if depth = 0 then refuse "unexpected \x60\x7d'"
        else commands extended n (depth - 1) (c :: found)
      | _ => commands extended n depth (c :: found)

/-- Read a script. -/
def Script.read (extended : Bool) (text : Bytes) : Except Fault Script :=
  match (commands extended (text.length + 1) 0 []).run { text } with
  | .ok (found, _) => .ok found.toArray
  | .error fault => .error fault

/-- The first label that is jumped to without being in the script. -/
def Script.missingLabel? (s : Script) : Option Bytes :=
  let labels := s.toList.filterMap fun c => match c.action with
    | .label name => some name
    | _ => none
  s.toList.findSome? fun c => match c.action with
    | .jump name | .jumpIf name | .jumpUnless name =>
      if name.isEmpty || labels.contains name then none else some name
    | _ => none

end TemplateCoverage.Utility.Sed
