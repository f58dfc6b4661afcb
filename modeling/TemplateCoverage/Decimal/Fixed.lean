import TemplateCoverage.Decimal.Binary

/-!
# Decimal text with a fixed number of places

The value of the double is exact, so rounding happens once, in decimal, and a half goes to the even
neighbour.
-/

namespace TemplateCoverage.Decimal

/-- The decimal digits of `n`, filled up with zeros on the left to `width`. -/
def paddedDigits (width n : Nat) : String :=
  let digits := toString n
  String.ofList (List.replicate (width - digits.length) '0') ++ digits

/-- A double with the given number of places after the point. The places are at least one. -/
def fixed (places : Nat) (x : Float) : String :=
  let sign := if isNegative x then "-" else ""
  match magnitude x with
  | .notANumber => "NaN"
  | .infinite => sign ++ "inf"
  | .finite mantissa exponent =>
    let (num, den) := scaledByTwo mantissa exponent
    let unit := Nat.pow 10 places
    let scaled := roundedQuotient (num * unit) den
    sign ++ toString (scaled / unit) ++ "." ++ paddedDigits places (scaled % unit)

end TemplateCoverage.Decimal
