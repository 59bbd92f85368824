import ControlPlane.Number.Decimal
import ControlPlane.Number.Double

/-!
# A double with a fixed number of places

The exact decimal value of a double, rounded to a given number of places with a half going to the
even neighbour.  The sign is kept also when the rounded value is zero.
-/

namespace ControlPlane.Double

/-- The digits of `n`, with a point before the last `places` of them. -/
def withPoint (places n : Nat) : List Char :=
  let digits := Decimal.padded (places + 1) n
  let whole := digits.length - places
  if places = 0 then digits else digits.take whole ++ '.' :: digits.drop whole

/-- **The text of a double with `places` places.** -/
def fixed (places : Nat) (x : Double) : List Char :=
  if x.isNaN then "NaN".toList
  else
    let body :=
      if x.isInfinite then "inf".toList
      else withPoint places (roundDiv (x.units * Nat.pow 10 places) (Nat.pow 2 unitExponent))
    if x.isNegative then '-' :: body else body

end ControlPlane.Double
