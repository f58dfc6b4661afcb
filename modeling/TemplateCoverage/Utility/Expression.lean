import TemplateCoverage.Regex.Reader
import TemplateCoverage.Utility.Basic

/-!
# Expressions in arguments

Arithmetic, comparisons and operations on texts, each operator and operand an argument of its own.
-/

namespace TemplateCoverage.Utility

namespace Expression

/-- How tightly an operator binds, the loosest first. -/
inductive Level where
  | either
  | both
  | comparison
  | sum
  | product
  | matching
  | function
  | atom
  deriving DecidableEq, Repr

/-- The next tighter level. -/
def Level.inner : Level → Level
  | .either => .both
  | .both => .comparison
  | .comparison => .sum
  | .sum => .product
  | .product => .matching
  | .matching => .function
  | .function | .atom => .atom

/-- The operators of a level. -/
def Level.operators : Level → List String
  | .either => ["|"]
  | .both => ["&"]
  | .comparison => ["<", "<=", "=", "==", "!=", ">=", ">"]
  | .sum => ["+", "-"]
  | .product => ["*", "/", "%"]
  | .matching => [":"]
  | .function | .atom => []

/-- A whole number. A plus sign does not belong to one. -/
def number? (text : Bytes) : Option Int :=
  match text with
  | '+' :: _ => none
  | _ => Bytes.int? text

/-- Whether a value counts as false. -/
def isNull (value : Bytes) : Bool :=
  value.isEmpty || (number? value).any (· == 0)

/-- Whether an expression has a group. -/
def hasGroup : Regex → Bool
  | .group _ _ => true
  | .append e f | .either e f => hasGroup e || hasGroup f
  | .repeated e _ _ => hasGroup e
  | _ => false

/-- Match a text from its beginning on. -/
def matched (text pattern : Bytes) : Except Bytes Bytes :=
  match Regex.read false pattern with
  | .error e => .error e.message
  | .ok e =>
    match e.longestAtStart? {} text with
    | none => .ok (if hasGroup e then [] else "0")
    | some (length, groups) =>
      .ok (if hasGroup e then (groups.lookup 1).getD [] else Bytes.ofNat length)

/-- A truth value. -/
def truth (holds : Bool) : Bytes :=
  if holds then "1" else "0"

/-- The value of an operator. -/
def apply (op : String) (left right : Bytes) : Except Bytes Bytes :=
  let arithmetic (f : Int → Int → Except Bytes Int) : Except Bytes Bytes :=
    match number? left, number? right with
    | some m, some n => (f m n).map Bytes.ofInt
    | _, _ => .error "non-integer argument"
  let compared (ints : Int → Int → Bool) (texts : Bytes → Bytes → Bool) : Except Bytes Bytes :=
    match number? left, number? right with
    | some m, some n => .ok (truth (ints m n))
    | _, _ => .ok (truth (texts left right))
  match op with
  | "|" => .ok (if !isNull left then left else if isNull right then "0" else right)
  | "&" => .ok (if isNull left || isNull right then "0" else left)
  | "<" => compared (· < ·) (· < ·)
  | "<=" => compared (· ≤ ·) fun a b => !decide (b < a)
  | "=" | "==" => compared (· == ·) (· == ·)
  | "!=" => compared (· != ·) (· != ·)
  | ">=" => compared (· ≥ ·) fun a b => !decide (a < b)
  | ">" => compared (· > ·) fun a b => b < a
  | "+" => arithmetic fun m n => .ok (m + n)
  | "-" => arithmetic fun m n => .ok (m - n)
  | "*" => arithmetic fun m n => .ok (m * n)
  | "/" => arithmetic fun m n => if n = 0 then .error "division by zero" else .ok (m.tdiv n)
  | "%" => arithmetic fun m n => if n = 0 then .error "division by zero" else .ok (m.tmod n)
  | _ => matched left right

/-- A part of a text, given by its place and its length. -/
def portion (text place length : Bytes) : Bytes :=
  match number? place, number? length with
  | some p, some n => if p ≤ 0 ∨ n ≤ 0 then [] else (text.drop (p.toNat - 1)).take n.toNat
  | _, _ => []

/-- The place of the first of some characters in a text. -/
def placeOf (text characters : Bytes) : Nat :=
  (text.findIdx? characters.contains).elim 0 (· + 1)

/-- The value of the words of a level, for a number of steps at most. The word before them is given
first. The result has the words that follow. -/
def value : Nat → Level → Bytes → List Bytes → Except Bytes (Bytes × Bytes × List Bytes)
  | 0, _, before, words => .ok ([], before, words)
  | n + 1, level, before, words =>
    let missing : Except Bytes (Bytes × Bytes × List Bytes) :=
      .error ("syntax error: missing argument after " ++ Bytes.cited before)
    match level with
    | .atom =>
      match words with
      | [] => missing
      | ['('] :: rest => do
        let (inner, last, rest) ← value n .either ['('] rest
        match rest with
        | [')'] :: after => .ok (inner, [')'], after)
        | [] => .error ("syntax error: expecting ')' after " ++ Bytes.cited last)
        | other :: _ =>
          .error ("syntax error: expecting ')' instead of " ++ Bytes.cited other)
      | [')'] :: _ => .error "syntax error: unexpected ')'"
      | word :: rest => .ok (word, word, rest)
    | .function =>
      match words with
      | [] => missing
      | word :: rest =>
        match String.ofList word with
        | "+" =>
          match rest with
          | [] => .error ("syntax error: missing argument after " ++ Bytes.cited word)
          | next :: after => .ok (next, next, after)
        | "length" => do
          let (text, last, rest) ← value n .function word rest
          .ok (Bytes.ofNat text.length, last, rest)
        | "match" => do
          let (text, last, rest) ← value n .function word rest
          let (pattern, last, rest) ← value n .function last rest
          let found ← matched text pattern
          .ok (found, last, rest)
        | "index" => do
          let (text, last, rest) ← value n .function word rest
          let (characters, last, rest) ← value n .function last rest
          .ok (Bytes.ofNat (placeOf text characters), last, rest)
        | "substr" => do
          let (text, last, rest) ← value n .function word rest
          let (place, last, rest) ← value n .function last rest
          let (length, last, rest) ← value n .function last rest
          .ok (portion text place length, last, rest)
        | _ => value n .atom before words
    | level => do
      let (first, last, rest) ← value n level.inner before words
      let step (state : Bytes × Bytes × List Bytes) (_ : Nat) :
          Except Bytes (Bytes × Bytes × List Bytes) :=
        let (left, _, rest) := state
        match rest with
        | op :: more =>
          if level.operators.contains (String.ofList op) then do
            let (right, last, rest) ← value n level.inner op more
            let result ← apply (String.ofList op) left right
            .ok (result, last, rest)
          else .ok state
        | [] => .ok state
      (List.range rest.length).foldlM step (first, last, rest)

end Expression

/-- Write the value of an expression. -/
def expr (u : UtilityCall) : Work Nat := do
  match if u.args.head? = some "--" then u.args.drop 1 else u.args with
  | [] => u.misused "missing operand" 2
  | words =>
    match Expression.value (8 * words.length + 16) .either [] words with
    | .error message =>
      u.complain message
      pure 2
    | .ok (_, _, extra :: _) =>
      u.complain ("syntax error: unexpected argument " ++ Bytes.cited extra)
      pure 2
    | .ok (result, _, []) =>
      Work.say (result ++ "\n")
      pure (if Expression.isNull result then 1 else 0)

end TemplateCoverage.Utility
