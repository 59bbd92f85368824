import ControlPlane.Json.Number

/-!
# Reading JSON strings and words

Like a number, a string is read in two ways.  The strict reading yields its characters; the
lenient one only looks for its end, and does not ask whether the escapes of surrogates pair up.

* `readString`, `skipString` — from after the opening quote to after the closing one.
* `readWord` — the words `null`, `true` and `false`.
-/

namespace ControlPlane.Json

/-- The blanks that may stand between the parts of a JSON text. -/
def isGap (c : Char) : Bool := c = ' ' || c = '\n' || c = '\r' || c = '\t'

/-- A text from its first character that is no blank. -/
def skipGap (cs : List Char) : List Char := cs.dropWhile isGap

/-! ## Escapes -/

/-- The character of a one-letter escape. -/
def unescape? (c : Char) : Option Char :=
  if c = '"' then some '"'
  else if c = '\\' then some '\\'
  else if c = '/' then some '/'
  else if c = 'b' then some (Char.ofNat 8)
  else if c = 'f' then some (Char.ofNat 12)
  else if c = 'n' then some '\n'
  else if c = 'r' then some '\r'
  else if c = 't' then some '\t'
  else none

/-- The value of a hexadecimal digit of either case. -/
def hexValue? (c : Char) : Option Nat :=
  let n := c.toNat
  if 48 ≤ n ∧ n ≤ 57 then some (n - 48)
  else if 97 ≤ n ∧ n ≤ 102 then some (n - 87)
  else if 65 ≤ n ∧ n ≤ 70 then some (n - 55)
  else none

/-- The number that four hexadecimal digits stand for. -/
def hexQuad? (a b c d : Char) : Option Nat := do
  let a ← hexValue? a
  let b ← hexValue? b
  let c ← hexValue? c
  let d ← hexValue? d
  return 4096 * a + 256 * b + 16 * c + d

/-- The fault of an escape that lacks its four digits: the text is too short when fewer than four
bytes of it are left. -/
def shortQuad (rest : List Char) : Fault :=
  if (rest.take 4).foldl (fun n c => n + c.utf8Size) 0 < 4 then .endOfText else .malformed

def isHighSurrogate (n : Nat) : Bool := 0xD800 ≤ n && n ≤ 0xDBFF

def isLowSurrogate (n : Nat) : Bool := 0xDC00 ≤ n && n ≤ 0xDFFF

/-- The character that a pair of surrogates encodes. -/
def ofSurrogates (high low : Nat) : Char :=
  Char.ofNat (0x10000 + (high - 0xD800) * 0x400 + (low - 0xDC00))

/-! ## Strings -/

/-- A character put before the characters of a string that has been read. -/
def before (c : Char) : Except Fault (List Char × List Char) → Except Fault (List Char × List Char)
  | .ok (s, rest) => .ok (c :: s, rest)
  | .error f => .error f

/-- **Strict reading of a string**: its characters, and the text after the closing quote. -/
def readString : List Char → Except Fault (List Char × List Char)
  | [] => .error .endOfText
  | c :: rest =>
    if c = '"' then .ok ([], rest)
    else if c = '\\' then
      match rest with
      | [] => .error .endOfText
      | e :: rest =>
        match unescape? e with
        | some u => before u (readString rest)
        | none =>
          if e ≠ 'u' then .error .malformed
          else match rest with
            | h₁ :: h₂ :: h₃ :: h₄ :: rest =>
              match hexQuad? h₁ h₂ h₃ h₄ with
              | none => .error .malformed
              | some n =>
                if isLowSurrogate n then .error .malformed
                else if isHighSurrogate n then
                  match rest with
                  | [] => .error .endOfText
                  | ['\\'] => .error .endOfText
                  | '\\' :: 'u' :: l₁ :: l₂ :: l₃ :: l₄ :: rest =>
                    match hexQuad? l₁ l₂ l₃ l₄ with
                    | none => .error .malformed
                    | some m =>
                      if isLowSurrogate m then before (ofSurrogates n m) (readString rest)
                      else .error .malformed
                  | '\\' :: 'u' :: rest => .error (shortQuad rest)
                  | _ => .error .malformed
                else before (Char.ofNat n) (readString rest)
            | rest => .error (shortQuad rest)
    else if c.toNat < 0x20 then .error .malformed
    else before c (readString rest)

/-- **Lenient reading of a string**: the text after the closing quote. -/
def skipString : List Char → Except Fault (List Char)
  | [] => .error .endOfText
  | c :: rest =>
    if c = '"' then .ok rest
    else if c = '\\' then
      match rest with
      | [] => .error .endOfText
      | e :: rest =>
        match unescape? e with
        | some _ => skipString rest
        | none =>
          if e ≠ 'u' then .error .malformed
          else match rest with
            | h₁ :: h₂ :: h₃ :: h₄ :: rest =>
              match hexQuad? h₁ h₂ h₃ h₄ with
              | none => .error .malformed
              | some _ => skipString rest
            | rest => .error (shortQuad rest)
    else if c.toNat < 0x20 then .error .malformed
    else skipString rest

/-! ## Words -/

/-- The text after a word that has to stand at its beginning. -/
def readWord : List Char → List Char → Except Fault (List Char)
  | [], cs => .ok cs
  | _ :: _, [] => .error .endOfText
  | w :: word, c :: cs => if w = c then readWord word cs else .error .malformed

end ControlPlane.Json
