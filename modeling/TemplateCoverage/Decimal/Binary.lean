/-!
# The exact value of a double

A finite double is a whole number times a power of two. `Magnitude` is that value without its sign,
so that rounding and printing are exact arithmetic on natural numbers.
-/

namespace TemplateCoverage.Decimal

/-- The absolute value of a double. -/
inductive Magnitude where
  /-- The value `mantissa * 2 ^ exponent`. -/
  | finite (mantissa : Nat) (exponent : Int)
  | infinite
  | notANumber
  deriving DecidableEq, Repr

/-- Whether a double carries the minus sign. Zero may carry it. -/
def isNegative (x : Float) : Bool :=
  x.toBits >>> 63 == 1

/-- The absolute value of a double, read off its bits. -/
def magnitude (x : Float) : Magnitude :=
  let bits := x.toBits.toNat
  let fraction := bits % Nat.pow 2 52
  let biased : Nat := bits / Nat.pow 2 52 % Nat.pow 2 11
  if biased = 2047 then (if fraction = 0 then .infinite else .notANumber)
  else if biased = 0 then .finite fraction (-1074)
  else .finite (Nat.pow 2 52 + fraction) ((biased : Int) - 1075)

/-- The quotient `a / b` rounded to the nearest whole number, where halves go to the even
neighbour. -/
def roundedQuotient (a b : Nat) : Nat :=
  let q := a / b
  let r := a % b
  if 2 * r < b then q
  else if b < 2 * r then q + 1
  else if q % 2 = 0 then q else q + 1

/-- The value `n * 2 ^ e` as a fraction. -/
def scaledByTwo (n : Nat) (e : Int) : Nat × Nat :=
  if 0 ≤ e then (n * Nat.pow 2 e.toNat, 1) else (n, Nat.pow 2 (-e).toNat)

end TemplateCoverage.Decimal
