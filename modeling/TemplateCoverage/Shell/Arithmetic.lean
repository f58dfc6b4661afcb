import TemplateCoverage.Shell.Syntax
import TemplateCoverage.Utility.Print

/-!
# Sums

Whole numbers of 64 bits with the usual operators. A name stands for the number that is the value of
a variable, and can get a new value.
-/

namespace TemplateCoverage.Shell

/-- A token of a sum. -/
inductive SumToken where
  | number (n : Int)
  | name (n : Bytes)
  | operator (text : String)
  /-- Something that has no meaning. -/
  | stray
  deriving DecidableEq, Repr

/-- Why a sum cannot be computed. -/
inductive SumFault where
  | malformed (what : String)
  /-- The value of a variable is no number. -/
  | notANumber (value : Bytes)
  deriving DecidableEq, Repr

/-- The wording of a fault in the sum of a text. -/
def SumFault.message (text : Bytes) : SumFault → Bytes
  | .malformed what =>
    "arithmetic expression: " ++ Bytes.ofText what ++ ": \"" ++ text ++ "\""
  | .notANumber value => "Illegal number: " ++ value

namespace Sum

/-- The operators, those that begin with others before these. -/
def operators : List String :=
  ["<<=", ">>=", "<<", ">>", "<=", ">=", "==", "!=", "&&", "||", "+=", "-=", "*=", "/=", "%=",
    "&=", "^=", "|=", "+", "-", "*", "/", "%", "<", ">", "!", "~", "&", "^", "|", "?", ":", "=",
    "(", ")"]

/-- The number of 64 bits that agrees with a number. -/
def wrapped (n : Int) : Int :=
  let size : Int := (Nat.pow 2 64 : Nat)
  let m := n % size
  if m < (Nat.pow 2 63 : Nat) then m else m - size

/-- A number that is too large or too small is replaced by the largest or the smallest one. -/
def clamped (n : Int) : Int :=
  max (-(Nat.pow 2 63 : Nat)) (min n ((Nat.pow 2 63 : Nat) - 1))

/-- The tokens of a text, for a number of them at most. -/
def tokens : Nat → Bytes → List SumToken
  | 0, _ | _, [] => []
  | n + 1, c :: rest =>
    if c = ' ' ∨ c = '\t' ∨ c = '\n' then tokens n rest
    else if c.isDigit then
      let (value, after) := Utility.leadingInteger (c :: rest)
      .number (clamped value) :: tokens n after
    else if isNameChar c then
      let name := (c :: rest).takeWhile isNameChar
      .name name :: tokens n ((c :: rest).drop name.length)
    else
      match operators.find? fun o => o.toList.isPrefixOf (c :: rest) with
      | some o => .operator o :: tokens n ((c :: rest).drop o.length)
      | none => [.stray]

/-- What the reading of a sum works on. -/
structure SumState where
  tokens : List SumToken
  /-- The new values of variables, the latest first. -/
  assigned : List (Bytes × Int) := []

/-- A step of reading and computing a sum. -/
abbrev Summing := StateT SumState (Except SumFault)

/-- How tightly the binary operators bind, the loosest first. -/
def binaryLevels : List (List String) :=
  [["|"], ["^"], ["&"], ["==", "!="], ["<", "<=", ">", ">="], ["<<", ">>"], ["+", "-"],
    ["*", "/", "%"]]

/-- The parts of a sum. -/
inductive SumLevel where
  | assignment
  | condition
  | disjunction
  | conjunction
  | binary (tightness : Nat)
  /-- The operators behind a value, and their operands. -/
  | rest (tightness : Nat) (left : Int)
  | primary
  deriving DecidableEq, Repr

/-- The value of a binary operator. -/
def apply (op : String) (a b : Int) : Except SumFault Int :=
  let truth (p : Bool) : Except SumFault Int := .ok (if p then 1 else 0)
  let bits (f : BitVec 64 → BitVec 64 → BitVec 64) : Except SumFault Int :=
    .ok (f (BitVec.ofInt 64 a) (BitVec.ofInt 64 b)).toInt
  match op with
  | "|" => bits (· ||| ·)
  | "^" => bits (· ^^^ ·)
  | "&" => bits (· &&& ·)
  | "==" => truth (a == b)
  | "!=" => truth (a != b)
  | "<" => truth (a < b)
  | "<=" => truth (a ≤ b)
  | ">" => truth (a > b)
  | ">=" => truth (a ≥ b)
  | "<<" => .ok (wrapped (a * (Nat.pow 2 (b % 64).toNat : Nat)))
  | ">>" => .ok (a / (Nat.pow 2 (b % 64).toNat : Nat))
  | "+" => .ok (wrapped (a + b))
  | "-" => .ok (wrapped (a - b))
  | "*" => .ok (wrapped (a * b))
  | "/" => if b = 0 then .error (.malformed "division by zero") else .ok (wrapped (a.tdiv b))
  | "%" => if b = 0 then .error (.malformed "division by zero") else .ok (wrapped (a.tmod b))
  | _ => .ok b

/-- Take an operator if it comes next. -/
def accept (ops : List String) : Summing (Option String) := do
  let s ← get
  match s.tokens with
  | .operator o :: rest =>
    if ops.contains o then
      set { s with tokens := rest }
      pure (some o)
    else pure none
  | _ => pure none

/-- The operators that give a variable a value. -/
def assigners : List String :=
  ["=", "+=", "-=", "*=", "/=", "%=", "<<=", ">>=", "&=", "^=", "|="]

/-- Read and compute a part of a sum, for a number of steps at most. A part that does not count
changes nothing. -/
def value (look : Bytes → Except SumFault Int) : Nat → SumLevel → Bool → Summing Int
  | 0, _, _ => pure 0
  | n + 1, level, counts => do
    let current (name : Bytes) : Summing Int := do
      match (← get).assigned.lookup name with
      | some v => pure v
      | none => liftM (look name)
    match level with
    | .assignment =>
      match (← get).tokens with
      | .name name :: .operator o :: rest =>
        if assigners.contains o then
          modify fun s => { s with tokens := rest }
          let right ← value look n .assignment counts
          if !counts then pure right
          else
            let result ←
              if o = "=" then pure right
              else do
                let left ← current name
                liftM (apply (String.ofList o.toList.dropLast) left right)
            modify fun s => { s with assigned := (name, result) :: s.assigned }
            pure result
        else value look n .condition counts
      | _ => value look n .condition counts
    | .condition =>
      let c ← value look n .disjunction counts
      if (← accept ["?"]).isNone then pure c
      else
        let yes ← value look n .assignment (counts && c ≠ 0)
        if (← accept [":"]).isNone then throw (.malformed "expecting ':'")
        let no ← value look n .condition (counts && c = 0)
        pure (if c ≠ 0 then yes else no)
    | .disjunction =>
      let a ← value look n .conjunction counts
      if (← accept ["||"]).isNone then pure a
      else
        let b ← value look n .disjunction (counts && a = 0)
        pure (if a ≠ 0 ∨ b ≠ 0 then 1 else 0)
    | .conjunction =>
      let a ← value look n (.binary 0) counts
      if (← accept ["&&"]).isNone then pure a
      else
        let b ← value look n .conjunction (counts && a ≠ 0)
        pure (if a ≠ 0 ∧ b ≠ 0 then 1 else 0)
    | .binary tightness =>
      if binaryLevels.length ≤ tightness then value look n .primary counts
      else
        let left ← value look n (.binary (tightness + 1)) counts
        value look n (.rest tightness left) counts
    | .rest tightness left =>
      match ← accept (binaryLevels.getD tightness []) with
      | none => pure left
      | some o =>
        let right ← value look n (.binary (tightness + 1)) counts
        let result ← if counts then liftM (apply o left right) else pure right
        value look n (.rest tightness result) counts
    | .primary =>
      match (← get).tokens with
      | .number m :: rest =>
        modify fun s => { s with tokens := rest }
        pure m
      | .name name :: rest =>
        modify fun s => { s with tokens := rest }
        if counts then current name else pure 0
      | .operator o :: rest =>
        modify fun s => { s with tokens := rest }
        match o with
        | "(" =>
          let inner ← value look n .assignment counts
          if (← accept [")"]).isNone then throw (.malformed "expecting ')'")
          pure inner
        | "+" => value look n .primary counts
        | "-" =>
          let m ← value look n .primary counts
          pure (wrapped (-m))
        | "!" =>
          let m ← value look n .primary counts
          pure (if m = 0 then 1 else 0)
        | "~" =>
          let m ← value look n .primary counts
          pure (-m - 1)
        | _ => throw (.malformed "expecting primary")
      | _ => throw (.malformed "expecting primary")

/-- Compute a sum. The result has the new values of variables in order. -/
def compute (look : Bytes → Except SumFault Int) (text : Bytes) :
    Except SumFault (Int × List (Bytes × Int)) :=
  let all := tokens (text.length + 1) text
  match (value look (24 * all.length + 24) .assignment true).run { tokens := all } with
  | .error fault => .error fault
  | .ok (n, s) =>
    if s.tokens.isEmpty then .ok (n, s.assigned.reverse)
    else .error (.malformed "expecting EOF")

end Sum

end TemplateCoverage.Shell
