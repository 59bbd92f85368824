import ControlPlane.Number.Decimal
import ControlPlane.Number.Double

/-!
# The shortest decimal of a double

Of all decimals that lie nearer to a double than to any other, the ones with the fewest digits are
found on the coarsest decimal grid that has a point there, and on it the point nearest to the
double is taken.  Only the two grid points around the double need a look: if any grid point lies
in the interval, one of these two does.

* `shortest` — digits `d₁ … dₙ` and exponent `e` of the decimal `d₁.d₂ … dₙ × 10 ^ e`.
* `Double.text` — the text of a finite double, positional from `10 ^ -5` below `10 ^ 16`.
-/

namespace ControlPlane

namespace Shortest

/-! ## The interval that rounds to a double -/

/-- The reals that round to a double, in quarters of a unit: `low` and `high` are the ends and
`mid` is the double; the ends belong to it when `closed`. -/
structure Interval where
  low : Nat
  mid : Nat
  high : Nat
  closed : Bool

/-- The interval of a positive finite magnitude.  Below a power of two the neighbours lie half as
far apart. -/
def interval (magnitude : Nat) : Interval :=
  let exponent := magnitude / Double.fractions
  let fraction := magnitude % Double.fractions
  let m := if exponent = 0 then fraction else Double.fractions + fraction
  let step := Nat.pow 2 (exponent - 1)
  let below := if fraction = 0 && exponent > 1 then 1 else 2
  { low := (4 * m - below) * step
    mid := 4 * m * step
    high := (4 * m + 2) * step
    closed := m % 2 = 0 }

/-- Quarters of a unit per one. -/
def quartersPerOne : Nat := Nat.pow 2 (Double.unitExponent + 2)

/-! ## Grids -/

/-- A point of the decimal grid with spacing `10 ^ exponent`, counted from zero, compared with
quarters of a unit: the point times `stepFactor` with the quarters times `quarterFactor`. -/
structure Grid where
  exponent : Int

/-- What one step of the grid is multiplied with, to be compared. -/
def Grid.stepFactor (g : Grid) : Nat := Nat.pow 10 g.exponent.toNat * quartersPerOne

/-- What quarters are multiplied with, to be compared. -/
def Grid.quarterFactor (g : Grid) : Nat := Nat.pow 10 (-g.exponent).toNat

/-- Whether a grid point lies in the interval. -/
def Grid.hits (g : Grid) (i : Interval) (point : Nat) : Bool :=
  let p := point * g.stepFactor
  let low := i.low * g.quarterFactor
  let high := i.high * g.quarterFactor
  (low < p && p < high) || (i.closed && (p = low || p = high))

/-- The distance of a grid point from the double. -/
def Grid.distance (g : Grid) (i : Interval) (point : Nat) : Nat :=
  let p := point * g.stepFactor
  let mid := i.mid * g.quarterFactor
  (p - mid) + (mid - p)

/-- The grid point in the interval that is nearest to the double, if there is one; of two equally
near the even one. -/
def Grid.best? (g : Grid) (i : Interval) : Option Nat :=
  let below := i.mid * g.quarterFactor / g.stepFactor
  let above := below + 1
  if g.hits i below then
    if g.hits i above then
      let near := g.distance i below
      let far := g.distance i above
      if near < far || (near = far && below % 2 = 0) then some below else some above
    else some below
  else if g.hits i above then some above
  else none

/-! ## The search -/

/-- The exponent of the leading digit of `mid` quarters, searched downward from `bound`. -/
def leading (mid : Nat) : Nat → Int → Int
  | 0, e => e
  | fuel + 1, e =>
    if mid * Nat.pow 10 (-e).toNat < Nat.pow 10 e.toNat * quartersPerOne then
      leading mid fuel (e - 1)
    else e

/-- The first grid with a point in the interval, from the grid `lead` upward in digits. -/
def search (i : Interval) : Nat → Int → Option (Nat × Int)
  | 0, _ => none
  | fuel + 1, exponent =>
    (((Grid.mk exponent).best? i).map fun point => (point, exponent)).orElse fun () =>
      search i fuel (exponent - 1)

/-- The point without the zeros at its end, and the exponent grown by as many. -/
def stripZeros : Nat → Nat → Int → Nat × Int
  | 0, n, e => (n, e)
  | fuel + 1, n, e => if n ≠ 0 && n % 10 = 0 then stripZeros fuel (n / 10) (e + 1) else (n, e)

/-- The digits of a grid point without the zeros at its end, and the exponent of the first of them; a
lone zero where there is no point. -/
def decimalOf : Option (Nat × Int) → List Char × Int
  | some (point, exponent) =>
    let (n, e) := stripZeros 20 point exponent
    let digits := Decimal.ofNat n
    (digits, e + (digits.length : Int) - 1)
  | none => (['0'], 0)

end Shortest

open Shortest in
/-- **The shortest decimal** of a positive finite magnitude: its digits, and the exponent of the
first of them. -/
def shortest (magnitude : Nat) : List Char × Int :=
  let i := interval magnitude
  decimalOf (search i 18 (leading i.mid 640 309))

namespace Double

/-- Digits with the point after the first `whole` of them, zeros filling what is missing. -/
def positional (digits : List Char) (whole : Int) : List Char :=
  if whole ≤ 0 then
    '0' :: '.' :: (List.replicate (-whole).toNat '0' ++ digits)
  else
    let w := whole.toNat
    let before := digits.take w ++ List.replicate (w - digits.length) '0'
    let after := digits.drop w
    before ++ '.' :: (if after.isEmpty then ['0'] else after)

/-- Digits with the point after the first, and the exponent with its sign. -/
def scientific (digits : List Char) (exponent : Int) : List Char :=
  let mantissa := match digits with
    | [] => []
    | [d] => [d]
    | d :: more => d :: '.' :: more
  mantissa ++ 'e' :: (if exponent < 0 then '-' else '+') :: Decimal.ofNat exponent.natAbs

/-- **The text of a finite double**: its shortest decimal, positional from `10 ^ -5` up to but not
including `10 ^ 16`, and with an exponent otherwise. -/
def text (x : Double) : List Char :=
  let body :=
    if x.isZero then ['0', '.', '0']
    else
      let (digits, exponent) := shortest x.magnitude
      if -5 ≤ exponent && exponent < 16 then positional digits (exponent + 1)
      else scientific digits exponent
  if x.isNegative then '-' :: body else body

end Double

end ControlPlane
