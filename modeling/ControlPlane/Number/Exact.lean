import ControlPlane.Number.Double
import ControlPlane.Text.Hex

/-!
# Doubles to the last bit

A text for doubles that tells any two apart: `0x` and the sixteen digits of the bits.  All doubles
that are not a number have one text.

* `exactText` — the text.
* `ofExact?` — the double of a text; infinities may also be given by name.
-/

namespace ControlPlane.Double

/-- **The exact text** of a double. -/
def exactText (x : Double) : String :=
  if x.isNaN then "nan" else "0x" ++ String.ofList (Hex.lower 16 x.bits.toNat)

/-- The double of an exact text or of a name. -/
def ofExact? (s : String) : Option Double :=
  if s = "nan" then some nan
  else if s = "inf" then some (infinity false)
  else if s = "-inf" then some (infinity true)
  else match s.toList with
    | '0' :: 'x' :: digits =>
      if digits.length = 16 then (Hex.number? digits).map fun n => ⟨UInt64.ofNat n⟩ else none
    | _ => none

end ControlPlane.Double
