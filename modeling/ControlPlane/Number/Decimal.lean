/-!
# Whole numbers in decimal digits

The digits of a natural number, and the number of a run of digits.
-/

namespace ControlPlane.Decimal

/-- The digit for a value below ten. -/
def digit (n : Nat) : Char := Char.ofNat (48 + n)

/-- Whether a character is one of the ten ASCII digits. -/
def isDigit (c : Char) : Bool := '0' ≤ c && c ≤ '9'

/-- The value of a digit. -/
def value (c : Char) : Nat := c.toNat - 48

/-- The digits of a number, without leading zeros. -/
def ofNat (n : Nat) : List Char :=
  if n < 10 then [digit n] else ofNat (n / 10) ++ [digit (n % 10)]

/-- The digits of a number, the sign before them when it is negative. -/
def ofInt : Int → List Char
  | .ofNat n => ofNat n
  | .negSucc n => '-' :: ofNat (n + 1)

/-- The number that a run of digits stands for. -/
def toNat (digits : List Char) : Nat :=
  digits.foldl (fun n c => 10 * n + value c) 0

/-- The digits of `n`, with zeros before them up to `width`. -/
def padded (width n : Nat) : List Char :=
  let digits := ofNat n
  List.replicate (width - digits.length) '0' ++ digits

/-- **A decimal count**: an optional plus sign and at least one digit, below `bound`. -/
def count? (bound : Nat) (s : List Char) : Option Nat :=
  let digits := match s with
    | '+' :: rest => rest
    | _ => s
  if !digits.isEmpty && digits.all isDigit then
    let n := toNat digits
    if n < bound then some n else none
  else none

end ControlPlane.Decimal
