import ControlPlane.Json.Value

/-!
# Reading JSON numbers

A number is read in two ways.  The *strict* reading yields its value; the *lenient* one only
passes over it, and accepts also a number that is out of range.  Both consume the same characters.

A number with a fraction or an exponent is a double, and so is a whole number that does not fit in
sixty-four bits, and a negative zero.  Its value is the leading digits, as many as fit in
sixty-four bits, taken as a double and then multiplied with or divided by a power of ten: two
roundings, so that the last bit need not be that of the nearest double.
-/

namespace ControlPlane.Json

/-- What is wrong with a text: it ends too early, it is not JSON, or it is JSON of another shape
than the one asked for. -/
inductive Fault where
  | endOfText
  | malformed
  | mismatched
  deriving DecidableEq, Repr, Inhabited

/-! ## Scaling by a power of ten -/

/-- The largest whole number that fits in sixty-four bits. -/
def maxWord : Nat := 0xFFFFFFFFFFFFFFFF

/-- The largest exponent that is still looked at. -/
def maxExponent : Nat := 0x7FFFFFFF

/-- The double nearest to a power of ten. -/
def powerOfTen (n : Nat) : Double := Double.ofNat (Nat.pow 10 n)

/-- A double that is not negative, scaled by a power of ten.  Powers beyond `10 ^ 308` are divided
out in steps of that size; three of them leave nothing. -/
def scale : Nat → Double → Int → Except Fault Double
  | 0, _, _ => .ok Double.zero
  | steps + 1, d, exponent =>
    if exponent.natAbs ≤ 308 then
      if 0 ≤ exponent then
        let scaled := d.mulMagnitude (powerOfTen exponent.natAbs)
        if scaled.isInfinite then .error .malformed else .ok scaled
      else .ok (d.divMagnitude (powerOfTen exponent.natAbs))
    else if d.isZero then .ok d
    else if 0 ≤ exponent then .error .malformed
    else scale steps (d.divMagnitude (powerOfTen 308)) (exponent + 308)

/-! ## Significand and exponent -/

/-- The leading digits of a whole part that fit in a word, and the number of those that follow. -/
def wholeDigits : Nat → List Char → Nat × Nat
  | n, [] => (n, 0)
  | n, c :: rest =>
    if 10 * n + Decimal.value c > maxWord then (n, rest.length + 1)
    else wholeDigits (10 * n + Decimal.value c) rest

/-- A significand with the digits of a fraction that still fit, and how many these are. -/
def fractionDigits : Nat → List Char → Nat × Nat
  | n, [] => (n, 0)
  | n, c :: rest =>
    if 10 * n + Decimal.value c > maxWord then (n, 0)
    else
      let (m, count) := fractionDigits (10 * n + Decimal.value c) rest
      (m, count + 1)

/-- The parts of a number's text: sign, whole part, and the digits of a fraction and of an
exponent where there are any. -/
structure NumberText where
  negative : Bool
  whole : List Char
  fraction : Option (List Char)
  exponent : Option (Bool × List Char)

/-- The value of a number with a fraction, an exponent or too large a whole part. -/
def NumberText.double (t : NumberText) : Except Fault Double := do
  let (n, dropped) := wholeDigits 0 t.whole
  let (n, places) := match t.fraction with
    | some digits => fractionDigits n digits
    | none => (n, 0)
  let start : Int := (dropped : Int) - (places : Int)
  let magnitude ← match t.exponent with
    | none => scale 4 (Double.ofNat n) start
    | some (down, digits) =>
      let e := Decimal.toNat digits
      if e > maxExponent then
        if n ≠ 0 && !down then .error .malformed else .ok Double.zero
      else scale 4 (Double.ofNat n) (if down then start - e else start + e)
  return if t.negative then magnitude.neg else magnitude

/-- **The value of a number's text.** -/
def NumberText.value (t : NumberText) : Except Fault Number :=
  let n := Decimal.toNat t.whole
  match t.fraction, t.exponent with
  | none, none =>
    if !t.negative && n ≤ maxWord then .ok (.int n)
    else if t.negative && n ≠ 0 && n ≤ 0x8000000000000000 then .ok (.int (-(n : Int)))
    else t.double.map .double
  | _, _ => t.double.map .double

/-! ## Cutting a number off a text -/

/-- A run of digits and what follows it. -/
def takeDigits (cs : List Char) : List Char × List Char :=
  (cs.takeWhile Decimal.isDigit, cs.dropWhile Decimal.isDigit)

/-- The fault of a number that lacks a digit before `rest`. -/
def missingDigit (rest : List Char) : Fault :=
  if rest.isEmpty then .endOfText else .malformed

/-- The whole part of a number: a zero alone, or digits that do not begin with zero. -/
def readWhole (cs : List Char) : Except Fault (List Char × List Char) :=
  match takeDigits cs with
  | ([], rest) => .error (missingDigit rest)
  | ('0' :: _ :: _, _) => .error .malformed
  | (digits, rest) => .ok (digits, rest)

/-- The fraction of a number, if a point follows. -/
def readFraction (cs : List Char) : Except Fault (Option (List Char) × List Char) :=
  match cs with
  | '.' :: cs =>
    match takeDigits cs with
    | ([], rest) => .error (missingDigit rest)
    | (digits, rest) => .ok (some digits, rest)
  | _ => .ok (none, cs)

/-- The exponent of a number, if one follows; `true` marks a negative one. -/
def readExponent (cs : List Char) : Except Fault (Option (Bool × List Char) × List Char) :=
  match cs with
  | e :: cs' =>
    if e = 'e' || e = 'E' then
      let (down, cs'') := match cs' with
        | '+' :: r => (false, r)
        | '-' :: r => (true, r)
        | r => (false, r)
      match takeDigits cs'' with
      | ([], rest) => .error (missingDigit rest)
      | (digits, rest) => .ok (some (down, digits), rest)
    else .ok (none, cs)
  | [] => .ok (none, cs)

/-- The parts of the number that a text begins with, and the rest of the text. -/
def readNumberText (cs : List Char) : Except Fault (NumberText × List Char) := do
  let (negative, cs) := match cs with
    | '-' :: r => (true, r)
    | r => (false, r)
  let (whole, cs) ← readWhole cs
  let (fraction, cs) ← readFraction cs
  let (exponent, cs) ← readExponent cs
  return (⟨negative, whole, fraction, exponent⟩, cs)

end ControlPlane.Json
