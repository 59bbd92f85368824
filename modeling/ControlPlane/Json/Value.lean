import ControlPlane.Number.Shortest

/-!
# JSON values and their compact text

A JSON value, and the one text in which this library writes it: no blanks, members in the order in
which they stand, and as few escapes as JSON allows.

* `Value` — null, truth values, numbers, strings, arrays and objects.
* `Value.chars`, `Value.text` — the compact text.
-/

namespace ControlPlane.Json

/-- A number is kept whole as long as it fits in sixty-four bits, and is a double otherwise. -/
inductive Number where
  | int (i : Int)
  | double (d : Double)
  deriving DecidableEq, Repr, Inhabited

/-- A JSON value.  The members of an object keep their order. -/
inductive Value where
  | null
  | bool (b : Bool)
  | number (n : Number)
  | string (s : String)
  | array (items : List Value)
  | object (members : List (String × Value))
  deriving Repr, Inhabited

/-! ## Strings -/

/-- The short escape of a character, for those that have one. -/
def shortEscape? (c : Char) : Option Char :=
  if c = '"' then some '"'
  else if c = '\\' then some '\\'
  else if c = '\n' then some 'n'
  else if c = '\r' then some 'r'
  else if c = '\t' then some 't'
  else if c.toNat = 8 then some 'b'
  else if c.toNat = 12 then some 'f'
  else none

/-- Four lower-case hexadecimal digits. -/
def hexFour (n : Nat) : List Char :=
  let digit := fun (d : Nat) => if d < 10 then Char.ofNat (48 + d) else Char.ofNat (87 + d)
  [digit (n / 4096 % 16), digit (n / 256 % 16), digit (n / 16 % 16), digit (n % 16)]

/-- A character inside a string: quote, backslash and the characters below the blank are escaped,
and every other one stands for itself. -/
def escape (c : Char) : List Char :=
  match shortEscape? c with
  | some e => ['\\', e]
  | none => if c.toNat < 0x20 then '\\' :: 'u' :: hexFour c.toNat else [c]

/-- A string with its quotes. -/
def quoted (s : String) : List Char :=
  '"' :: (s.toList.flatMap escape ++ ['"'])

/-! ## Values -/

/-- The text of a number.  JSON has no text for a double that is not finite; such a number is
written as null. -/
def Number.chars : Number → List Char
  | .int i => Decimal.ofInt i
  | .double d => if d.isFinite then d.text else "null".toList

mutual

/-- **The compact text** of a value. -/
def Value.chars : Value → List Char
  | .null => "null".toList
  | .bool true => "true".toList
  | .bool false => "false".toList
  | .number n => n.chars
  | .string s => quoted s
  | .array items => '[' :: (itemChars items ++ [']'])
  | .object members => '\x7b' :: (memberChars members ++ ['\x7d'])

/-- The items of an array, a comma between two of them. -/
def itemChars : List Value → List Char
  | [] => []
  | [item] => item.chars
  | item :: rest => item.chars ++ ',' :: itemChars rest

/-- The members of an object, a comma between two of them. -/
def memberChars : List (String × Value) → List Char
  | [] => []
  | [(key, value)] => quoted key ++ ':' :: value.chars
  | (key, value) :: rest => quoted key ++ ':' :: (value.chars ++ ',' :: memberChars rest)

end

/-- The compact text of a value, as a string. -/
def Value.text (v : Value) : String := String.ofList v.chars

end ControlPlane.Json
