import ControlPlane.Text.Blank
import ControlPlane.Text.Hex

/-!
# Request targets

The target of a request is a path, perhaps with a query after it.  A path is told apart by its
segments as they are written; what a segment stands for is found by decoding it afterwards.

* `segments` — the path of a target, cut at its slashes.
* `decodeSegment` — what a segment stands for.
* `isTarget` — which texts can be sent as targets.
-/

namespace ControlPlane.Http

/-- The path of a target, without query and fragment. -/
def pathOf (target : List Char) : List Char := target.takeWhile fun c => c ≠ '?' && c ≠ '#'

/-- **The segments of a path** that begins with a slash. -/
def segments (target : String) : Option (List (List Char)) :=
  match pathOf target.toList with
  | '/' :: path => some (pieces (· = '/') path)
  | _ => none

/-! ## Percent-encoding -/

/-- The byte `%`. -/
def percent : UInt8 := 0x25

/-- The value of a byte as a hexadecimal digit. -/
def hexOfByte? (b : UInt8) : Option Nat :=
  if b.toNat < 128 then Hex.value? (Char.ofNat b.toNat) else none

/-- Bytes with every percent sign and the two digits after it turned into one byte.  A percent sign
without two digits stands for itself. -/
def percentDecode : List UInt8 → List UInt8
  | [] => []
  | [b] => [b]
  | [b, c] => [b, c]
  | b :: h :: l :: rest =>
    if b = percent then
      match hexOfByte? h, hexOfByte? l with
      | some high, some low => UInt8.ofNat (16 * high + low) :: percentDecode rest
      | _, _ => b :: percentDecode (h :: l :: rest)
    else b :: percentDecode (h :: l :: rest)

/-- **What a segment stands for**, if that is a text. -/
def decodeSegment (segment : List Char) : Option String :=
  String.fromUTF8? ⟨(percentDecode (String.ofList segment).toUTF8.toList).toArray⟩

/-! ## Which targets can be sent -/

/-- The characters of a path.  Of the visible ones only a few have to be encoded. -/
def isPathChar (c : Char) : Bool :=
  let n := c.toNat
  n = 0x21 || n = 0x22 || (0x24 ≤ n && n ≤ 0x3B) || n = 0x3D || (0x40 ≤ n && n ≤ 0x5F)
    || (0x61 ≤ n && n ≤ 0x7E) || 0x7F ≤ n

/-- The characters of a query. -/
def isQueryChar (c : Char) : Bool :=
  let n := c.toNat
  n = 0x21 || (0x24 ≤ n && n ≤ 0x3B) || n = 0x3D || 0x3F ≤ n

/-- **Whether a text can be sent as a target.**  A fragment is not sent, and may hold anything. -/
def isTarget (target : List Char) : Bool :=
  let path := pathOf target
  let query := ((target.drop (path.length + 1)).takeWhile (· ≠ '#'))
  path.all isPathChar
    && ((target.drop path.length).head? ≠ some '?' || query.all isQueryChar)

/-- A target without its fragment. -/
def withoutFragment (target : List Char) : List Char := target.takeWhile (· ≠ '#')

end ControlPlane.Http
