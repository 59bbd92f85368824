/-!
# Doubles

A double is kept as its sixty-four bits, so that two doubles are the same when their bits are.
Every finite double is a whole multiple of the smallest positive one, `2 ^ -1074`; its magnitude
counted in that unit is a natural number, and the bits of the magnitude *are* the order of the
magnitudes.  All arithmetic below is exact arithmetic on such counts followed by one rounding.

* `nearest` — the double nearest to a quotient of natural numbers, a tie going to the even one.
* `add`, `scale` — a sum, and a product or quotient with a power of ten, each rounded once.
-/

namespace ControlPlane

/-- The quotient rounded to a whole number, a half going to the even neighbour. -/
def roundDiv (num den : Nat) : Nat :=
  let q := num / den
  let twice := 2 * (num % den)
  if twice > den || (twice = den && q % 2 = 1) then q + 1 else q

/-- A double, as its bits: one of sign, eleven of exponent, fifty-two of fraction. -/
structure Double where
  bits : UInt64
  deriving DecidableEq, Inhabited, Repr

namespace Double

/-! ## The parts of a double -/

/-- The bits of the sign. -/
def signBit : Nat := 0x8000000000000000

/-- The number of fractions, which is `2 ^ 52`: the bits above them are the exponent. -/
def fractions : Nat := 0x10000000000000

/-- The magnitude bits of an infinity; a larger magnitude is not a number. -/
def infinityBits : Nat := 0x7FF * fractions

/-- The bits without the sign. -/
def magnitude (x : Double) : Nat := x.bits.toNat % signBit

/-- Whether the sign bit is set. -/
def isNegative (x : Double) : Bool := signBit ≤ x.bits.toNat

def isNaN (x : Double) : Bool := infinityBits < x.magnitude

def isInfinite (x : Double) : Bool := x.magnitude = infinityBits

def isFinite (x : Double) : Bool := x.magnitude < infinityBits

/-- The double with the given sign and magnitude bits. -/
def ofParts (negative : Bool) (magnitude : Nat) : Double :=
  ⟨UInt64.ofNat (magnitude + if negative then signBit else 0)⟩

def zero : Double := ofParts false 0

def infinity (negative : Bool) : Double := ofParts negative infinityBits

/-- The one not-a-number that arithmetic yields. -/
def nan : Double := ofParts false (infinityBits + fractions / 2)

/-- The other sign. -/
def neg (x : Double) : Double := ofParts (!x.isNegative) x.magnitude

/-- Whether a double stands for zero, of either sign. -/
def isZero (x : Double) : Bool := x.magnitude = 0

/-! ## Counting in units of the smallest positive double -/

/-- The unit is `2 ^ -unitExponent`. -/
def unitExponent : Nat := 1074

/-- The magnitude of a finite double in units. -/
def units (x : Double) : Nat :=
  let exponent := x.magnitude / fractions
  let fraction := x.magnitude % fractions
  if exponent = 0 then fraction else (fractions + fraction) * Nat.pow 2 (exponent - 1)

/-- The magnitude bits nearest to `num / den` units.  Below `2 ^ 53` units the bits are the count
itself; above, each doubling adds `2 ^ 52` to them. -/
def bitsOfUnits (num den : Nat) : Nat :=
  let doublings := (num / den).log2 - 52
  min infinityBits (doublings * fractions + roundDiv num (den * Nat.pow 2 doublings))

/-- **The double nearest to a quotient**, a tie going to the even fraction, and a value beyond the
largest finite double to infinity. -/
def nearest (negative : Bool) (num den : Nat) : Double :=
  ofParts negative (bitsOfUnits (num * Nat.pow 2 unitExponent) den)

/-- The double nearest to a natural number. -/
def ofNat (n : Nat) : Double := nearest false n 1

/-- The double nearest to an integer. -/
def ofInt : Int → Double
  | .ofNat n => nearest false n 1
  | .negSucc n => nearest true (n + 1) 1

/-! ## Arithmetic -/

/-- The units of a finite double with its sign. -/
def signedUnits (x : Double) : Int :=
  if x.isNegative then -(x.units : Int) else x.units

/-- **Addition**, rounded once.  Opposite infinities have no sum, and a sum that cancels is the
positive zero. -/
def add (x y : Double) : Double :=
  if x.isNaN || y.isNaN then nan
  else if x.isInfinite then
    if y.isInfinite && x.isNegative != y.isNegative then nan else x
  else if y.isInfinite then y
  else
    let sum := x.signedUnits + y.signedUnits
    if sum = 0 then ofParts (x.isNegative && y.isNegative) 0
    else ofParts (sum < 0) (bitsOfUnits sum.natAbs 1)

/-- The product of the magnitudes of two finite doubles. -/
def mulMagnitude (x y : Double) : Double :=
  nearest false (x.units * y.units) (Nat.pow 2 (2 * unitExponent))

/-- The quotient of the magnitudes of two finite doubles, the second one not zero. -/
def divMagnitude (x y : Double) : Double :=
  nearest false x.units y.units

/-- The order of two doubles; none holds when one of them is not a number. -/
def lt (x y : Double) : Bool :=
  if x.isNaN || y.isNaN then false
  else
    let key := fun (d : Double) =>
      if d.isNegative then -(d.magnitude : Int) else (d.magnitude : Int)
    key x < key y

end Double

end ControlPlane
