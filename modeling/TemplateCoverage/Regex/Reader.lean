import TemplateCoverage.Regex.Basic

/-!
# Reading regular expressions

There are two ways to write an expression. In a basic one, groups, intervals and alternatives are
marked by backslashes, and a sign that cannot mean anything where it stands is an ordinary character.
In an extended one, the same signs stand without backslashes.
-/

namespace TemplateCoverage.Regex

/-- Why a text is not an expression. -/
inductive ReadError where
  | unmatchedBracket
  | unmatchedOpening
  | unmatchedClosing
  | unmatchedBrace
  | invalidInterval
  | invalidRange
  | invalidReference
  | invalidClass
  | nothingToRepeat
  | trailingBackslash
  deriving DecidableEq, Repr

/-- The wording of an error. -/
def ReadError.message : ReadError → String
  | .unmatchedBracket => "Unmatched [, [^, [:, [., or [="
  | .unmatchedOpening => "Unmatched ( or \\("
  | .unmatchedClosing => "Unmatched ) or \\)"
  | .unmatchedBrace => "Unmatched \\\x7b"
  | .invalidInterval => "Invalid content of \\\x7b\\\x7d"
  | .invalidRange => "Invalid range end"
  | .invalidReference => "Invalid back reference"
  | .invalidClass => "Invalid character class name"
  | .nothingToRepeat => "Invalid preceding regular expression"
  | .trailingBackslash => "Trailing backslash"

/-- What an expression is written with. -/
inductive Token where
  | one (set : CharSet)
  | boundary (b : Boundary)
  | again (number : Nat)
  | opening
  | closing
  | bar
  | repetition (least : Nat) (most : Option Nat)
  deriving DecidableEq, Repr

/-! ### Sets -/

/-- A named part of a set, from behind `[` and its mark on: the name, and what follows the mark and
`]`. -/
def namedPart? (mark : Char) : Bytes → Option (Bytes × Bytes)
  | [] => none
  | c :: rest =>
    match rest with
    | ']' :: after =>
      if c = mark then some ([], after)
      else (namedPart? mark rest).map fun (name, after) => (c :: name, after)
    | _ => (namedPart? mark rest).map fun (name, after) => (c :: name, after)

/-- The parts of a set up to its closing bracket. -/
def setParts : Nat → Bool → Bytes → Except ReadError (List (Char × Char) × Bytes)
  | 0, _, _ => .error .unmatchedBracket
  | n + 1, isFirst, cs =>
    let more (part : List (Char × Char)) (rest : Bytes) :
        Except ReadError (List (Char × Char) × Bytes) :=
      (setParts n false rest).map fun (parts, after) => (part ++ parts, after)
    match cs with
    | [] => .error .unmatchedBracket
    | ']' :: rest => if isFirst then more [(']', ']')] rest else .ok ([], rest)
    | '[' :: ':' :: rest =>
      match namedPart? ':' rest with
      | none => .error .unmatchedBracket
      | some (name, after) =>
        match CharSet.class? (Bytes.text name) with
        | some ranges => more ranges after
        | none => .error .invalidClass
    | '[' :: '.' :: c :: '.' :: ']' :: rest => more [(c, c)] rest
    | '[' :: '=' :: c :: '=' :: ']' :: rest => more [(c, c)] rest
    | low :: '-' :: high :: rest =>
      if high = ']' then more [(low, low), ('-', '-')] (high :: rest)
      else if low ≤ high then more [(low, high)] rest
      else .error .invalidRange
    | c :: rest => more [(c, c)] rest

/-- A set from behind its opening bracket on. -/
def setAt (cs : Bytes) : Except ReadError (CharSet × Bytes) :=
  let (negated, body) :=
    match cs with
    | '^' :: rest => (true, rest)
    | rest => (false, rest)
  (setParts (body.length + 1) true body).map fun (ranges, after) => ({ negated, ranges }, after)

/-! ### Tokens -/

/-- The bounds of an interval in front of the text that ends it. -/
def interval? (ending cs : Bytes) : Option ((Nat × Option Nat) × Bytes) :=
  let first := cs.takeWhile Char.isDigit
  let afterFirst := cs.drop first.length
  let finish (bounds : Nat × Option Nat) (rest : Bytes) : Option ((Nat × Option Nat) × Bytes) :=
    if ending.isPrefixOf rest then some (bounds, rest.drop ending.length) else none
  match afterFirst with
  | ',' :: rest =>
    let second := rest.takeWhile Char.isDigit
    if first.isEmpty && second.isEmpty then finish (0, none) rest
    else finish ((Bytes.nat? first).getD 0, Bytes.nat? second) (rest.drop second.length)
  | rest =>
    match Bytes.nat? first with
    | some n => finish (n, some n) rest
    | none => none

/-- Whether nothing stands before a sign that it could apply to. -/
def isLeading (previous? : Option Token) : Bool :=
  match previous? with
  | none | some .opening | some .bar | some (.boundary .lineStart) => true
  | _ => false

/-- What a backslash and a character mean in both ways of writing. -/
def escaped (c : Char) : Token :=
  match c with
  | 'w' => .one .word
  | 'W' => .one CharSet.word.complement
  | 's' => .one .blank
  | 'S' => .one CharSet.blank.complement
  | 'b' => .boundary .wordEdge
  | 'B' => .boundary .notWordEdge
  | '<' => .boundary .wordStart
  | '>' => .boundary .wordEnd
  | '\x60' => .boundary .textStart
  | '\'' => .boundary .textEnd
  | c => if '1' ≤ c ∧ c ≤ '9' then .again (c.toNat - '0'.toNat) else .one (.single c)

/-- The next token of a basic expression. -/
def basicToken (previous? : Option Token) (cs : Bytes) : Except ReadError (Token × Bytes) :=
  match cs with
  | ['\\'] => .error .trailingBackslash
  | '\\' :: '(' :: rest => .ok (.opening, rest)
  | '\\' :: ')' :: rest => .ok (.closing, rest)
  | '\\' :: '|' :: rest => .ok (.bar, rest)
  | '\\' :: '+' :: rest =>
    if isLeading previous? then .ok (.one (.single '+'), rest)
    else .ok (.repetition 1 none, rest)
  | '\\' :: '?' :: rest =>
    if isLeading previous? then .ok (.one (.single '?'), rest)
    else .ok (.repetition 0 (some 1), rest)
  | '\\' :: '{' :: rest =>
    if isLeading previous? then .error .nothingToRepeat
    else
      match interval? ['\\', '}'] rest with
      | some ((least, most), after) =>
        if (most.map (decide <| least ≤ ·)).getD true then .ok (.repetition least most, after)
        else .error .invalidInterval
      | none =>
        if rest.contains '}' then .error .invalidInterval else .error .unmatchedBrace
  | '\\' :: c :: rest => .ok (escaped c, rest)
  | '*' :: rest =>
    if isLeading previous? then .ok (.one (.single '*'), rest) else .ok (.repetition 0 none, rest)
  | '^' :: rest =>
    match previous? with
    | none | some .opening | some .bar => .ok (.boundary .lineStart, rest)
    | _ => .ok (.one (.single '^'), rest)
  | '$' :: rest =>
    let isLast := rest.isEmpty || ['\\', ')'].isPrefixOf rest || ['\\', '|'].isPrefixOf rest
    .ok (if isLast then .boundary .lineEnd else .one (.single '$'), rest)
  | '.' :: rest => .ok (.one .all, rest)
  | '[' :: rest => (setAt rest).map fun (set, after) => (.one set, after)
  | c :: rest => .ok (.one (.single c), rest)
  | [] => .error .trailingBackslash

/-- The next token of an extended expression. -/
def extendedToken (cs : Bytes) : Except ReadError (Token × Bytes) :=
  match cs with
  | ['\\'] => .error .trailingBackslash
  | '\\' :: c :: rest => .ok (escaped c, rest)
  | '(' :: rest => .ok (.opening, rest)
  | ')' :: rest => .ok (.closing, rest)
  | '|' :: rest => .ok (.bar, rest)
  | '*' :: rest => .ok (.repetition 0 none, rest)
  | '+' :: rest => .ok (.repetition 1 none, rest)
  | '?' :: rest => .ok (.repetition 0 (some 1), rest)
  | '{' :: rest =>
    match interval? ['}'] rest with
    | some ((least, most), after) =>
      if (most.map (decide <| least ≤ ·)).getD true then .ok (.repetition least most, after)
      else .error .invalidInterval
    | none => .ok (.one (.single '{'), rest)
  | '^' :: rest => .ok (.boundary .lineStart, rest)
  | '$' :: rest => .ok (.boundary .lineEnd, rest)
  | '.' :: rest => .ok (.one .all, rest)
  | '[' :: rest => (setAt rest).map fun (set, after) => (.one set, after)
  | c :: rest => .ok (.one (.single c), rest)
  | [] => .error .trailingBackslash

/-- The tokens of an expression. -/
def tokens (extended : Bool) : Nat → Option Token → Bytes → Except ReadError (List Token)
  | 0, _, _ => .ok []
  | _ + 1, _, [] => .ok []
  | n + 1, previous?, cs =>
    match if extended then extendedToken cs else basicToken previous? cs with
    | .error e => .error e
    | .ok (t, rest) => (tokens extended n (some t) rest).map (t :: ·)

/-! ### Expressions -/

/-- An expression with the repetitions behind it. -/
def repeatedBy (e : Regex) : List Token → Regex × List Token
  | .repetition least most :: rest => repeatedBy (.repeated e least most) rest
  | rest => (e, rest)

/-- Read a sequence of alternatives within `depth` groups. Given are the number of groups so far and
what stands before in the alternative. -/
def ofTokens (depth : Nat) :
    Nat → Nat → Regex → List Token → Except ReadError (Regex × Nat × List Token)
  | 0, _, _, _ => .error .unmatchedOpening
  | _ + 1, groups, front, [] =>
    if depth = 0 then .ok (front, groups, []) else .error .unmatchedOpening
  | n + 1, groups, front, t :: rest =>
    let next (e : Regex) (groups : Nat) (rest : List Token) :
        Except ReadError (Regex × Nat × List Token) :=
      let (e, after) := repeatedBy e rest
      ofTokens depth n groups (.append front e) after
    match t with
    | .one set => next (.one set) groups rest
    | .boundary b => next (.boundary b) groups rest
    | .again number =>
      if number ≤ groups then next (.again number) groups rest else .error .invalidReference
    | .repetition _ _ => ofTokens depth n groups front rest
    | .bar =>
      (ofTokens depth n groups .empty rest).map fun (other, groups, after) =>
        (.either front other, groups, after)
    | .closing => if depth = 0 then .error .unmatchedClosing else .ok (front, groups, rest)
    | .opening =>
      match ofTokens (depth + 1) n (groups + 1) .empty rest with
      | .error e => .error e
      | .ok (body, inside, after) => next (.group (groups + 1) body) inside after

/-- Read an expression. -/
def read (extended : Bool) (text : Bytes) : Except ReadError Regex :=
  match tokens extended (text.length + 1) none text with
  | .error e => .error e
  | .ok ts => (ofTokens 0 (ts.length + 1) 0 .empty ts).map (·.1)

/-- The expression that matches a text itself. -/
def literal (text : Bytes) : Regex :=
  text.foldl (fun e c => .append e (.one (.single c))) .empty

end TemplateCoverage.Regex
