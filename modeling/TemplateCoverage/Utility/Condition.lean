import TemplateCoverage.Utility.Print

/-!
# Conditions

Tests of texts, numbers and files, which can be combined. The words of a condition are read while it
is judged; a word is an operator or an operand depending on those around it.
-/

namespace TemplateCoverage.Utility

/-- A whole number with blanks around it. It has to fit in 64 bits. -/
def wholeNumber? (text : Bytes) : Option Int :=
  let body := text.dropWhile Bytes.isBlank
  let (negative, body) :=
    match body with
    | '-' :: rest => (true, rest)
    | '+' :: rest => (false, rest)
    | rest => (false, rest)
  let digits := body.takeWhile Char.isDigit
  let rest := body.drop digits.length
  if digits.isEmpty || !rest.all Bytes.isBlank then none
  else
    let n : Int := (leadingDigits 10 digits).1
    let n := if negative then -n else n
    if n < -(Nat.pow 2 63 : Nat) || (Nat.pow 2 63 : Nat) - 1 < n then none else some n

namespace Condition

/-- What a word can be in a condition. -/
inductive WordKind where
  | operand
  | unary
  | binary
  | negation
  | conjunction
  | disjunction
  | opening
  | closing
  | nothing
  deriving DecidableEq, Repr

/-- The operators with one operand. -/
def unaryOperators : List String :=
  ["-r", "-w", "-x", "-e", "-f", "-d", "-c", "-b", "-p", "-u", "-g", "-k", "-s", "-t", "-z", "-n",
    "-h", "-O", "-G", "-L", "-S"]

/-- The operators with two operands. -/
def binaryOperators : List String :=
  ["=", "!=", "<", ">", "-eq", "-ne", "-ge", "-gt", "-le", "-lt", "-nt", "-ot", "-ef"]

/-- What an operator is, wherever it stands. -/
def operatorKind? (word : Bytes) : Option WordKind :=
  let text := String.ofList word
  if unaryOperators.contains text then some .unary
  else if binaryOperators.contains text then some .binary
  else
    match text with
    | "!" => some .negation
    | "-a" => some .conjunction
    | "-o" => some .disjunction
    | "(" => some .opening
    | ")" => some .closing
    | _ => none

/-- Whether the operator in front is meant as an operand. -/
def isOperand : List Bytes → Bool
  | [_] => true
  | [_, _] => false
  | _ :: next :: _ => operatorKind? next = some .binary
  | [] => false

/-- What the word in front is. -/
def kindOf (words : List Bytes) : WordKind :=
  match words with
  | [] => .nothing
  | word :: rest =>
    match operatorKind? word with
    | none => .operand
    | some .unary => if isOperand words then .operand else .unary
    | some .opening => if rest.isEmpty then .operand else .opening
    | some kind => kind

/-- Whether a test of one operand holds. -/
def unaryHolds (files : FileSystem) (op arg : Bytes) : Except Bytes Bool :=
  let path := Bytes.text arg
  let isDevice := path = "/dev/null"
  match String.ofList op with
  | "-z" => .ok arg.isEmpty
  | "-n" => .ok !arg.isEmpty
  | "-e" | "-r" | "-w" => .ok (isDevice || files.pathExists path)
  | "-c" => .ok isDevice
  | "-f" => .ok (files.isFile path)
  | "-d" => .ok (files.isDirectory path)
  | "-s" =>
    .ok (match files.status path with
      | .ok (.file contents _) => 0 < contents.size
      | .ok _ => true
      | .error _ => false)
  | "-x" =>
    .ok (match files.status path with
      | .ok (.file _ executable) => executable
      | .ok _ => true
      | .error _ => false)
  | "-h" | "-L" =>
    .ok (match files.find .keep path with
      | .ok (_, .link _) => true
      | _ => false)
  | "-O" | "-G" => .ok (isDevice || files.pathExists path)
  | "-t" => if (wholeNumber? arg).isSome then .ok false else .error ("Illegal number: " ++ arg)
  | _ => .ok false

/-- Whether a test of two operands holds. -/
def binaryHolds (files : FileSystem) (left op right : Bytes) : Except Bytes Bool :=
  let compared (holds : Int → Int → Bool) : Except Bytes Bool :=
    match wholeNumber? left, wholeNumber? right with
    | some m, some n => .ok (holds m n)
    | none, _ => .error ("Illegal number: " ++ left)
    | _, none => .error ("Illegal number: " ++ right)
  let place (path : Bytes) : Option Location := (files.canonical (Bytes.text path)).toOption
  match String.ofList op with
  | "=" => .ok (left == right)
  | "!=" => .ok (left != right)
  | "<" => .ok (left < right)
  | ">" => .ok (right < left)
  | "-eq" => compared (· == ·)
  | "-ne" => compared (· != ·)
  | "-ge" => compared (· ≥ ·)
  | "-gt" => compared (· > ·)
  | "-le" => compared (· ≤ ·)
  | "-lt" => compared (· < ·)
  | "-ef" => .ok ((place left).isSome && place left == place right)
  | _ => .ok false

/-- The parts of a condition. -/
inductive Level where
  | disjunction
  | conjunction
  | negation
  | primary
  deriving DecidableEq, Repr

/-- Judge the words of a part of a condition, for a number of steps at most. The kind is what the
first word is taken for. The result has the words from the last one of the part on. -/
def judge (files : FileSystem) :
    Nat → Level → WordKind → List Bytes → Except Bytes (Bool × List Bytes)
  | 0, _, _, words => .ok (false, words)
  | n + 1, .disjunction, kind, words => do
    let (left, last) ← judge files n .conjunction kind words
    if kindOf (last.drop 1) = .disjunction then
      let next := last.drop 2
      let (right, last) ← judge files n .disjunction (kindOf next) next
      .ok (left || right, last)
    else .ok (left, last)
  | n + 1, .conjunction, kind, words => do
    let (left, last) ← judge files n .negation kind words
    if kindOf (last.drop 1) = .conjunction then
      let next := last.drop 2
      let (right, last) ← judge files n .conjunction (kindOf next) next
      .ok (left && right, last)
    else .ok (left, last)
  | n + 1, .negation, kind, words =>
    if kind ≠ .negation then judge files n .primary kind words
    else do
      let next := words.drop 1
      let (holds, last) ← judge files n .negation (kindOf next) (if next.isEmpty then words else next)
      .ok (!holds, last)
  | n + 1, .primary, kind, words =>
    match kind, words with
    | .nothing, _ | _, [] => .ok (false, words)
    | .opening, _ :: rest =>
      if kindOf rest = .closing then .ok (false, rest)
      else do
        let (holds, last) ← judge files n .disjunction (kindOf rest) rest
        let next := last.drop 1
        if kindOf next = .closing then .ok (holds, next) else .error "closing paren expected"
    | .unary, op :: rest =>
      match rest with
      | [] => .error (op ++ ": argument expected")
      | arg :: _ => do
        let holds ← unaryHolds files op arg
        .ok (holds, rest)
    | _, left :: rest =>
      match rest with
      | op :: more =>
        if operatorKind? op = some .binary then
          match more with
          | [] => .error (op ++ ": argument expected")
          | right :: _ => do
            let holds ← binaryHolds files left op right
            .ok (holds, more)
        else .ok (!left.isEmpty, words)
      | [] => .ok (!left.isEmpty, words)

/-- Judge all words. -/
def judgeAll (files : FileSystem) (kind : WordKind) (words : List Bytes) : Except Bytes Bool := do
  let (holds, last) ← judge files (8 * words.length + 8) .disjunction kind words
  match last with
  | word :: _ :: _ => .error (word ++ ": unexpected operator")
  | _ => .ok holds

/-- Whether a condition holds, or what is wrong with it. -/
def holds (files : FileSystem) : List Bytes → Except Bytes Bool
  | [] => .ok false
  | [left, op, right] =>
    if operatorKind? op = some .binary then judgeAll files .operand [left, op, right]
    else if left = ['('] ∧ right = [')'] then judgeAll files (kindOf [op]) [op]
    else if left = ['!'] then (holds files [op, right]).map (!·)
    else judgeAll files (kindOf [left, op, right]) [left, op, right]
  | [first, second, third, fourth] =>
    if first = ['('] ∧ fourth = [')'] then
      judgeAll files (kindOf [second, third]) [second, third]
    else if first = ['!'] then (holds files [second, third, fourth]).map (!·)
    else judgeAll files (kindOf [first, second, third, fourth]) [first, second, third, fourth]
  | words => judgeAll files (kindOf words) words

/-- Judge the arguments of the command of a name. An opening bracket needs its closing one. -/
def ofCommand (files : FileSystem) (name : Bytes) (args : List Bytes) : Except Bytes Bool :=
  if name.getLast? = some '[' then
    if args.getLast? = some [']'] then holds files args.dropLast else .error "missing ]"
  else holds files args

end Condition

/-- Judge a condition. -/
def test (u : UtilityCall) : Work Nat := do
  match Condition.ofCommand (← get).files u.name u.args with
  | .ok true => pure 0
  | .ok false => pure 1
  | .error message =>
    u.complain message
    pure 2

end TemplateCoverage.Utility
