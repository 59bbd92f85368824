/-!
# Bytes as hexadecimal text

Two digits to a byte, the high one first.  Writing uses the lower-case digits; reading takes both
cases and nothing else, so `decode (encode bytes) = some bytes`.
-/

namespace ControlPlane.Hex

/-- The lower-case digit for a value below sixteen. -/
def digit (n : Nat) : Char :=
  if n < 10 then Char.ofNat (48 + n) else Char.ofNat (87 + n)

/-- The value of a digit of either case. -/
def value? (c : Char) : Option Nat :=
  let n := c.toNat
  if 48 ≤ n ∧ n ≤ 57 then some (n - 48)
  else if 97 ≤ n ∧ n ≤ 102 then some (n - 87)
  else if 65 ≤ n ∧ n ≤ 70 then some (n - 55)
  else none

/-- The two digits of a byte. -/
def ofByte (b : UInt8) : List Char :=
  [digit (b.toNat / 16), digit (b.toNat % 16)]

/-- The text of a byte string. -/
def encode (bytes : List UInt8) : List Char :=
  bytes.flatMap ofByte

/-- The bytes of a text; none when a digit is missing or a character is no digit. -/
def decode : List Char → Option (List UInt8)
  | [] => some []
  | [_] => none
  | high :: low :: rest => do
    let h ← value? high
    let l ← value? low
    let bytes ← decode rest
    return UInt8.ofNat (16 * h + l) :: bytes

/-- A number in `width` upper-case digits. -/
def upper (width n : Nat) : List Char :=
  match width with
  | 0 => []
  | w + 1 =>
    let d := n % 16
    upper w (n / 16) ++ [if d < 10 then Char.ofNat (48 + d) else Char.ofNat (55 + d)]

/-- A number in `width` lower-case digits. -/
def lower (width n : Nat) : List Char :=
  match width with
  | 0 => []
  | w + 1 => lower w (n / 16) ++ [digit (n % 16)]

/-- The number that a run of digits stands for, the high digit first. -/
def number? (digits : List Char) : Option Nat :=
  digits.foldlM (fun n c => (value? c).map (16 * n + ·)) 0

end ControlPlane.Hex
