import ControlPlane.Number.Reading
import ControlPlane.Text.Hex

/-!
# TOML numbers: reading

Single underscores may stand between the digits of a number.  An integer fits in sixty-four bits
with sign and may be hexadecimal, octal or binary; a float has a fraction or an exponent, or is a
named infinity or not-a-number.
-/

namespace ControlPlane.Toml

/-! ## Digits -/

/-- A run of digits without the underscores between them, and what follows. -/
def digitRun (isDigit : Char → Bool) : List Char → List Char × List Char
  | [] => ([], [])
  | c :: rest =>
    if isDigit c then
      let (digits, rest) := digitRun isDigit rest
      (c :: digits, rest)
    else if c = '_' && rest.head?.any isDigit then digitRun isDigit rest
    else ([], c :: rest)

/-- A run of digits that begins with one. -/
def readDigits (isDigit : Char → Bool) (cs : List Char) : Option (List Char × List Char) :=
  if cs.head?.any isDigit then some (digitRun isDigit cs) else none

/-- The sign before a number; `true` is a minus. -/
def readSign : List Char → Bool × List Char
  | '+' :: rest => (false, rest)
  | '-' :: rest => (true, rest)
  | cs => (false, cs)

/-- The digits of a whole number in decimals, which does not begin with a zero unless it is one. -/
def readWhole : List Char → Option (List Char × List Char)
  | '0' :: rest => some (['0'], rest)
  | cs => readDigits Decimal.isDigit cs

/-! ## Integers -/

def minInteger : Int := -0x8000000000000000

def maxInteger : Int := 0x7FFFFFFFFFFFFFFF

/-- An integer, if it fits. -/
def checked (n : Int) (rest : List Char) : Option (Int × List Char) :=
  if minInteger ≤ n && n ≤ maxInteger then some (n, rest) else none

/-- The digits of a base. -/
def isDigitOf (base : Nat) (c : Char) : Bool := (Hex.value? c).any (· < base)

/-- An integer in another base, after its mark. -/
def readBased (base : Nat) (cs : List Char) : Option (Int × List Char) := do
  let (digits, rest) ← readDigits (isDigitOf base) cs
  let n := digits.foldl (fun n c => base * n + (Hex.value? c).getD 0) 0
  checked n rest

/-- **Reads an integer.** -/
def readInteger : List Char → Option (Int × List Char)
  | '0' :: 'x' :: rest => readBased 16 rest
  | '0' :: 'o' :: rest => readBased 8 rest
  | '0' :: 'b' :: rest => readBased 2 rest
  | cs => do
    let (negative, cs) := readSign cs
    let (digits, rest) ← readWhole cs
    let n : Int := Decimal.toNat digits
    checked (if negative then -n else n) rest

/-! ## Floats -/

/-- The digits of a fraction, if a point follows. -/
def readFraction : List Char → Option (Option (List Char) × List Char)
  | '.' :: rest => (readDigits Decimal.isDigit rest).map fun (digits, rest) => (some digits, rest)
  | cs => some (none, cs)

/-- An exponent, if one follows. -/
def readExponent : List Char → Option (Option Int × List Char)
  | [] => some (none, [])
  | c :: rest =>
    if c = 'e' || c = 'E' then do
      let (negative, rest) := readSign rest
      let (digits, rest) ← readDigits Decimal.isDigit rest
      let n : Int := Decimal.toNat digits
      some (some (if negative then -n else n), rest)
    else some (none, c :: rest)

/-- A float that has a fraction, an exponent or both.  One that is too large is refused, but one
that is too small is the negative infinity. -/
def readDecimalFloat (cs : List Char) : Option (Double × List Char) := do
  let (negative, cs) := readSign cs
  let (whole, cs) ← readWhole cs
  let (fraction, cs) ← readFraction cs
  let (exponent, cs) ← readExponent cs
  if fraction.isNone && exponent.isNone then none
  else
    let digits := whole ++ fraction.getD []
    let scale := exponent.getD 0 - ((fraction.getD []).length : Int)
    let d := Double.nearestDecimal negative (Decimal.toNat digits) scale
    if d = Double.infinity false then none else some (d, cs)

/-- A named float. -/
def readNamedFloat (cs : List Char) : Option (Double × List Char) :=
  match readSign cs with
  | (negative, 'i' :: 'n' :: 'f' :: rest) => some (Double.infinity negative, rest)
  | (negative, 'n' :: 'a' :: 'n' :: rest) =>
    some (if negative then Double.nan.neg else Double.nan, rest)
  | _ => none

/-- **Reads a float.** -/
def readFloat (cs : List Char) : Option (Double × List Char) :=
  match readDecimalFloat cs with
  | some r => some r
  | none => readNamedFloat cs

end ControlPlane.Toml
