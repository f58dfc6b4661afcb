import TemplateCoverage.Decimal.Binary

/-!
# The shortest decimal that reads back

Every double is the nearest double to all reals of an interval around it. Of the decimals in that
interval, `shortest` picks one with the fewest digits, and of those the one nearest to the double.
`Layout` says how the digits become text.
-/

namespace TemplateCoverage.Decimal

/-- The interval of reals that read back as a double: the bounds and the value as multiples of one
unit, which is the fraction `unit.1 / unit.2`. -/
structure Interval where
  low : Nat
  value : Nat
  high : Nat
  unit : Nat × Nat
  /-- Whether the bounds themselves read back. -/
  closed : Bool

/-- The interval of the double `mantissa * 2 ^ exponent`. The double below a power of two is only
half as far away as the one above it. -/
def Interval.around (mantissa : Nat) (exponent : Int) : Interval :=
  let gapBelow := if mantissa = Nat.pow 2 52 ∧ exponent ≠ -1074 then 1 else 2
  { low := 4 * mantissa - gapBelow
    value := 4 * mantissa
    high := 4 * mantissa + 2
    unit := scaledByTwo 1 (exponent - 2)
    closed := mantissa % 2 = 0 }

/-- A decimal `digits * 10 ^ exponent`. -/
structure Scientific where
  digits : Nat
  exponent : Int
  deriving DecidableEq, Repr

/-- The value `n * 10 ^ e` as a fraction. -/
def scaledByTen (n : Nat) (e : Int) : Nat × Nat :=
  if 0 ≤ e then (n * Nat.pow 10 e.toNat, 1) else (n, Nat.pow 10 (-e).toNat)

namespace Interval

/-- Whether the decimal `d * 10 ^ e` reads back as the double. -/
def holds (i : Interval) (d : Nat) (e : Int) : Bool :=
  let (num, den) := scaledByTen d e
  let x := num * i.unit.2
  let low := i.low * i.unit.1 * den
  let high := i.high * i.unit.1 * den
  if i.closed then low ≤ x && x ≤ high else low < x && x < high

/-- The decimal on the grid of multiples of `10 ^ e` that reads back and is nearest to the double,
if one of the two neighbours of the double on this grid reads back. -/
def nearestOnGrid? (i : Interval) (e : Int) : Option Scientific :=
  let (gridNum, gridDen) := scaledByTen 1 e
  let num := i.value * i.unit.1 * gridDen
  let den := i.unit.2 * gridNum
  let below := num / den
  let nearest := roundedQuotient num den
  let other := if nearest = below then below + 1 else below
  if i.holds nearest e then some ⟨nearest, e⟩
  else if i.holds other e then some ⟨other, e⟩
  else none

end Interval

/-- The number of decimal digits of `n`. -/
def digitCount (n : Nat) : Nat :=
  (toString n).length

/-- The least `k` with `num / den < 10 ^ k`, for a positive fraction, or a number one above it. -/
def decimalMagnitude (num den : Nat) : Int :=
  let guess : Int := (digitCount num : Int) - digitCount den + 1
  let (gNum, gDen) := scaledByTen 1 (guess - 1)
  if num * gDen < gNum * den then guess - 1 else guess

/-- The decimal without zeros at the end of its digits. -/
def Scientific.reduced (s : Scientific) : Scientific :=
  strip s.digits s.exponent 20
where
  /-- Drop at most `n` zeros. -/
  strip (digits : Nat) (exponent : Int) : Nat → Scientific
    | 0 => ⟨digits, exponent⟩
    | n + 1 =>
      if digits ≠ 0 ∧ digits % 10 = 0 then strip (digits / 10) (exponent + 1) n
      else ⟨digits, exponent⟩

/-- The shortest decimal that reads back as the positive double `mantissa * 2 ^ exponent`: the first
grid with a hit, from the coarsest to the one with seventeen digits. -/
def shortest (mantissa : Nat) (exponent : Int) : Scientific :=
  let i := Interval.around mantissa exponent
  let k := decimalMagnitude (i.value * i.unit.1) i.unit.2
  let grids := (List.range 18).map fun (n : Nat) => k - n
  ((grids.findSome? i.nearestOnGrid?).getD ⟨mantissa, exponent⟩).reduced

/-- How the digits of a shortest decimal become text: positional while the point falls between the
two limits, counted from the first digit, else with an exponent. -/
structure Layout where
  /-- The point stands at most this far after the first digit. -/
  pointAtMost : Int
  /-- The point stands more than this far from the first digit, where a negative number counts the
  zeros between them. -/
  pointAbove : Int
  infinity : String
  notANumber : String

/-- The digits as text, with the point or the exponent as the layout says. -/
def Layout.digits (layout : Layout) (s : Scientific) : String :=
  let text := toString s.digits
  let length : Int := text.length
  let point := length + s.exponent
  let zeros (n : Int) : String := String.ofList (List.replicate n.toNat '0')
  if 0 ≤ s.exponent ∧ point ≤ layout.pointAtMost then
    text ++ zeros s.exponent ++ ".0"
  else if 0 < point ∧ point ≤ layout.pointAtMost then
    let (whole, places) := text.toList.splitAt point.toNat
    String.ofList whole ++ "." ++ String.ofList places
  else if layout.pointAbove < point ∧ point ≤ 0 then
    "0." ++ zeros (-point) ++ text
  else
    let front := String.ofList (text.toList.take 1)
    let back := String.ofList (text.toList.drop 1)
    front ++ (if back.isEmpty then "" else "." ++ back) ++ "e" ++ toString (point - 1)

/-- A double as the shortest text that reads back, in the given layout. -/
def Layout.text (layout : Layout) (x : Float) : String :=
  let sign := if isNegative x then "-" else ""
  match magnitude x with
  | .notANumber => layout.notANumber
  | .infinite => sign ++ layout.infinity
  | .finite 0 _ => sign ++ "0.0"
  | .finite mantissa exponent => sign ++ layout.digits (shortest mantissa exponent)

/-- The layout of numbers in documents: positional up to sixteen digits before the point and up to
four zeros after it. -/
def documentLayout : Layout :=
  { pointAtMost := 16, pointAbove := -5, infinity := "inf", notANumber := "NaN" }

end TemplateCoverage.Decimal
