import ControlPlane.Number.Decimal
import ControlPlane.Number.Double

/-!
# Reading doubles

A decimal text denotes a rational number, and is read as the double nearest to it, a tie going to
the even one: one rounding, however long the text is.

* `nearestDecimal` — the double nearest to a decimal.
* `parse?` — the double that a whole text denotes.
-/

namespace ControlPlane.Double

/-- **The double nearest to `n × 10 ^ exponent`.**  A decimal whose leading digit is far beyond the
finite doubles, or far below the smallest, is not computed. -/
def nearestDecimal (negative : Bool) (n : Nat) (exponent : Int) : Double :=
  let lead := exponent + (Decimal.ofNat n).length
  if n = 0 || lead < -330 then ofParts negative 0
  else if 310 < lead then infinity negative
  else if 0 ≤ exponent then nearest negative (n * Nat.pow 10 exponent.toNat) 1
  else nearest negative n (Nat.pow 10 (-exponent).toNat)

/-- The names of the doubles that are not finite, in lower case. -/
def named? (name : List Char) : Option Double :=
  if name = "inf".toList || name = "infinity".toList then some (infinity false)
  else if name = "nan".toList then some nan
  else none

/-- The sign before a number; `true` is a minus. -/
def splitSign : List Char → Bool × List Char
  | '+' :: rest => (false, rest)
  | '-' :: rest => (true, rest)
  | cs => (false, cs)

/-- The value of an exponent: a sign, if any, and digits. -/
def exponent? (cs : List Char) : Option Int :=
  let (negative, digits) := splitSign cs
  if digits.isEmpty || !digits.all Decimal.isDigit then none
  else
    let n : Int := Decimal.toNat digits
    some (if negative then -n else n)

/-- The digits of a fraction, if a point stands there, and what follows. -/
def splitFraction : List Char → List Char × List Char
  | '.' :: rest => (rest.takeWhile Decimal.isDigit, rest.dropWhile Decimal.isDigit)
  | cs => ([], cs)

/-- The double of a decimal without its sign: digits, of which some may stand after a point, and an
exponent. -/
def decimal? (negative : Bool) (cs : List Char) : Option Double :=
  let whole := cs.takeWhile Decimal.isDigit
  let (fraction, rest) := splitFraction (cs.dropWhile Decimal.isDigit)
  let digits := whole ++ fraction
  if digits.isEmpty then none
  else
    let value := fun (exponent : Int) =>
      nearestDecimal negative (Decimal.toNat digits) (exponent - fraction.length)
    match rest with
    | [] => some (value 0)
    | e :: rest => if e = 'e' || e = 'E' then (exponent? rest).map value else none

/-- **The double that a text denotes**: a decimal or a name, either with a sign. -/
def parse? (s : List Char) : Option Double :=
  let (negative, cs) := splitSign s
  match named? (cs.map Char.toLower) with
  | some d => some (if negative then d.neg else d)
  | none => decimal? negative cs

end ControlPlane.Double
