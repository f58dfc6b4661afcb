import TemplateCoverage.Decimal.Reader
import TemplateCoverage.Decimal.Shortest

/-!
# YAML values

The values of the core schema, and which of them a plain scalar stands for.
-/

namespace TemplateCoverage.Yaml

/-- A value. The pairs of a mapping have different keys. -/
inductive Value where
  | null
  | bool (b : Bool)
  | int (n : Int)
  | float (x : Float)
  | string (s : String)
  | sequence (items : List Value)
  | mapping (pairs : List (Value × Value))
  | tagged (tag : String) (value : Value)

instance : Inhabited Value := ⟨.null⟩

namespace Value

/-- Whether two floats are the same value. -/
def sameFloat (x y : Float) : Bool :=
  x == y || (x.isNaN && y.isNaN)

/-- Whether two values are the same. The order of the pairs of a mapping does not matter. -/
def same : Value → Value → Bool
  | .null, .null => true
  | .bool a, .bool b => a == b
  | .int m, .int n => m == n
  | .float x, .float y => sameFloat x y
  | .string s, .string t => s == t
  | .sequence items, .sequence others =>
    items.length == others.length &&
      (items.attach.zip others).all fun (⟨a, _⟩, b) => same a b
  | .mapping pairs, .mapping others =>
    pairs.length == others.length &&
      pairs.attach.all fun ⟨p, _⟩ => others.any fun q => same p.1 q.1 && same p.2 q.2
  | .tagged s v, .tagged t w => s == t && same v w
  | _, _ => false
termination_by v => sizeOf v
decreasing_by
  · have := List.sizeOf_lt_of_mem ‹_›
    simp only [Value.sequence.sizeOf_spec]
    omega
  · have := List.sizeOf_lt_of_mem ‹p ∈ pairs›
    cases p
    simp only [Prod.mk.sizeOf_spec, Value.mapping.sizeOf_spec] at *
    omega
  · have := List.sizeOf_lt_of_mem ‹p ∈ pairs›
    cases p
    simp only [Prod.mk.sizeOf_spec, Value.mapping.sizeOf_spec] at *
    omega
  · simp only [Value.tagged.sizeOf_spec]
    omega

/-- The value without its tags. -/
def untagged : Value → Value
  | .tagged _ v => untagged v
  | v => v

/-- The value under a key of a mapping. -/
def field? (v : Value) (name : String) : Option Value :=
  match v.untagged with
  | .mapping pairs => (pairs.find? fun p => same p.1 (.string name)).map (·.2)
  | _ => none

/-- The layout of floats: positional up to sixteen digits before the point and up to four zeros
after it. -/
def floatLayout : Decimal.Layout :=
  { Decimal.documentLayout with infinity := ".inf", notANumber := ".nan" }

/-- The text of a scalar that has one. -/
def scalarText? : Value → Option String
  | .bool b => some (if b then "true" else "false")
  | .int n => some (toString n)
  | .float x => some (floatLayout.text x)
  | .string s => some s
  | _ => none

/-! ### Plain scalars -/

/-- Whether a plain scalar stands for null. -/
def isNull (s : String) : Bool :=
  s == "~" || s == "null" || s == "Null" || s == "NULL"

/-- The truth value of a plain scalar. -/
def readBool? (s : String) : Option Bool :=
  if s = "true" ∨ s = "True" ∨ s = "TRUE" then some true
  else if s = "false" ∨ s = "False" ∨ s = "FALSE" then some false
  else none

/-- The value of a digit in the given base. -/
def digit? (base : Nat) (c : Char) : Option Nat :=
  let n :=
    if c.isDigit then c.toNat - '0'.toNat
    else if c.isAlpha then c.toLower.toNat - 'a'.toNat + 10
    else base
  if n < base then some n else none

/-- The number that digits stand for in the given base. -/
def readDigits? (base : Nat) (digits : List Char) : Option Nat :=
  if digits.isEmpty then none
  else digits.foldlM (fun n c => (digit? base c).map (base * n + ·)) 0

/-- The number after a sign: hexadecimal, octal or binary after a mark, and decimal otherwise. -/
def readMagnitude? (cs : List Char) : Option Nat :=
  match cs with
  | '0' :: 'x' :: digits => readDigits? 16 digits
  | '0' :: 'o' :: digits => readDigits? 8 digits
  | '0' :: 'b' :: digits => readDigits? 2 digits
  | digits => readDigits? 10 digits

/-- A sign and what follows it. -/
def splitSign (cs : List Char) : Bool × List Char :=
  match cs with
  | '-' :: rest => (true, rest)
  | '+' :: rest => (false, rest)
  | rest => (false, rest)

/-- Whether a text is made of digits of which the first one is a needless zero. -/
def isPadded (cs : List Char) : Bool :=
  let digits := (splitSign cs).2
  decide (1 < digits.length) && digits.head? == some '0' && digits.all Char.isDigit

/-- The integer that a plain scalar spells, in at most 128 bits: with a sign bit after a minus, and
without one otherwise. -/
def readInt? (cs : List Char) : Option Int :=
  if isPadded cs then none
  else
    let (negative, body) := splitSign cs
    match readMagnitude? body with
    | none => none
    | some n =>
      if negative then if n ≤ Nat.pow 2 127 then some (-n) else none
      else if n < Nat.pow 2 128 then some n else none

/-- The value of an integer. Only those of 64 bits are values. -/
def ofInt? (n : Int) : Option Value :=
  if -(Nat.pow 2 63 : Int) ≤ n ∧ n < (Nat.pow 2 64 : Int) then some (.int n) else none

/-- The float of a plain scalar. Infinity and what is not a number have words of their own. -/
def readFloat? (s : String) : Option Float :=
  if s = ".inf" ∨ s = ".Inf" ∨ s = ".INF" ∨ s = "+.inf" ∨ s = "+.Inf" ∨ s = "+.INF" then
    some (1.0 / 0.0)
  else if s = "-.inf" ∨ s = "-.Inf" ∨ s = "-.INF" then some (-1.0 / 0.0)
  else if s = ".nan" ∨ s = ".NaN" ∨ s = ".NAN" then some (0.0 / 0.0)
  else (Decimal.readFloat? s).filter (·.isFinite)

/-- The value of a plain scalar without a tag. There is none for an integer that is too large to be a
value; one that is not even read as an integer may be a float. -/
def ofPlain? (s : String) : Option Value :=
  if s.isEmpty || isNull s then some .null
  else
    match readBool? s, readInt? s.toList with
    | some b, _ => some (.bool b)
    | none, some n => ofInt? n
    | none, none =>
      match if isPadded s.toList then none else readFloat? s with
      | some x => some (.float x)
      | none => some (.string s)

/-- The value of a scalar with a tag of the core schema. There is none if the text does not fit. -/
def ofCore? (type : String) (s : String) : Option Value :=
  match type with
  | "bool" => (readBool? s).map .bool
  | "int" => (readInt? s.toList).bind ofInt?
  | "float" => (readFloat? s).map .float
  | "null" => if isNull s then some .null else none
  | _ => some (.string s)

end Value

end TemplateCoverage.Yaml
