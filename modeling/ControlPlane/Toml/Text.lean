import ControlPlane.Text.Hex

/-!
# TOML strings and keys: reading

A string is *basic*, with escapes, or *literal*, without; and each of them stands on one line or is
*long* and may hold line breaks.  Every reader here takes the text after the opening quotes and
answers the characters of the string and the text after the closing quotes.

* `readBasic`, `readLongBasic`, `readLiteral`, `readLongLiteral` — the four forms.
* `readString` — any of them, told apart by the opening quotes.
* `readKey` — a key, which may have several parts with points between them.
-/

namespace ControlPlane.Toml

/-! ## Characters -/

/-- The blanks that may stand within a line. -/
def isGap (c : Char) : Bool := c = ' ' || c = '\t'

/-- A text from its first character that is no blank. -/
def skipGap (cs : List Char) : List Char := cs.dropWhile isGap

/-- The characters that may stand in strings and comments as they are: all but line ends and
control characters; a tab is no control character here. -/
def isPlain (c : Char) : Bool := c = '\t' || (0x20 ≤ c.toNat && c.toNat ≠ 0x7F)

/-- The characters of keys without quotes. -/
def isBare (c : Char) : Bool :=
  ('a' ≤ c && c ≤ 'z') || ('A' ≤ c && c ≤ 'Z') || ('0' ≤ c && c ≤ '9') || c = '_' || c = '-'

/-- The text after a line end: a line feed, alone or after a carriage return. -/
def readNewline : List Char → Option (List Char)
  | '\n' :: rest => some rest
  | '\r' :: '\n' :: rest => some rest
  | _ => none

/-! ## Escapes -/

/-- The character of a one-letter escape. -/
def unescape? (c : Char) : Option Char :=
  if c = '"' then some '"'
  else if c = '\\' then some '\\'
  else if c = 'b' then some (Char.ofNat 8)
  else if c = 't' then some '\t'
  else if c = 'n' then some '\n'
  else if c = 'f' then some (Char.ofNat 12)
  else if c = 'r' then some '\r'
  else none

/-- The character with the number that hexadecimal digits give, unless it is a surrogate or none. -/
def scalar? (digits : List Char) : Option Char := do
  let n ← Hex.number? digits
  if h : n.isValidChar then some (Char.ofNatAux n h) else none

/-- A character, if there is one, put before the characters of a string that has been read. -/
def push (c : Option Char) (r : Option (List Char × List Char)) :
    Option (List Char × List Char) := do
  let c ← c
  let (s, rest) ← r
  some (c :: s, rest)

/-! ## Strings on one line -/

/-- **Reads a basic string.** -/
def readBasic : List Char → Option (List Char × List Char)
  | [] => none
  | c :: rest =>
    if c = '"' then some ([], rest)
    else if c = '\\' then
      match rest with
      | [] => none
      | e :: rest =>
        if e = 'u' then
          match rest with
          | a :: b :: c :: d :: rest => push (scalar? [a, b, c, d]) (readBasic rest)
          | _ => none
        else if e = 'U' then
          match rest with
          | a :: b :: c :: d :: e :: f :: g :: h :: rest =>
            push (scalar? [a, b, c, d, e, f, g, h]) (readBasic rest)
          | _ => none
        else push (unescape? e) (readBasic rest)
    else if isPlain c then push (some c) (readBasic rest)
    else none

/-- **Reads a literal string.** -/
def readLiteral : List Char → Option (List Char × List Char)
  | [] => none
  | c :: rest =>
    if c = '\x27' then some ([], rest)
    else if isPlain c then push (some c) (readLiteral rest)
    else none

/-! ## Long strings

Three quotes close a long string, and up to two more before them belong to its text.
-/

/-- The end of a long string, at a run of quotes that closes it: the quotes of the run that belong
to the text, and what follows. -/
def closing (quote : Char) (cs : List Char) : Option (List Char × List Char) :=
  let run := (cs.takeWhile (· = quote)).length
  if 3 ≤ run then
    let extra := min (run - 3) 2
    some (List.replicate extra quote, cs.drop (3 + extra))
  else none

/-- Where the reading of a long basic string stands with respect to a backslash at the end of a
line: nowhere near, behind it on its line, or behind the line end. -/
inductive Fold where
  | off
  | onLine
  | behind
  deriving DecidableEq, Repr

/-- **Reads a long basic string.**  A backslash at the end of a line takes away all blanks and line
ends up to the next other character. -/
def readLongBasic (fold : Fold) : List Char → Option (List Char × List Char)
  | [] => none
  | c :: rest =>
    if fold ≠ .off && isGap c then readLongBasic fold rest
    else if fold ≠ .off && c = '\n' then readLongBasic .behind rest
    else if fold ≠ .off && c = '\r' && rest.head? = some '\n' then readLongBasic fold rest
    else if fold = .onLine then none
    else if c = '"' then
      match closing '"' (c :: rest) with
      | some done => some done
      | none => push (some c) (readLongBasic .off rest)
    else if c = '\\' then
      match rest with
      | [] => none
      | e :: rest' =>
        if isGap e || (e = '\r' && rest'.head? = some '\n') then readLongBasic .onLine rest'
        else if e = '\n' then readLongBasic .behind rest'
        else if e = 'u' then
          match rest' with
          | a :: b :: c :: d :: rest => push (scalar? [a, b, c, d]) (readLongBasic .off rest)
          | _ => none
        else if e = 'U' then
          match rest' with
          | a :: b :: c :: d :: e :: f :: g :: h :: rest =>
            push (scalar? [a, b, c, d, e, f, g, h]) (readLongBasic .off rest)
          | _ => none
        else push (unescape? e) (readLongBasic .off rest')
    else if c = '\r' && rest.head? = some '\n' then readLongBasic .off rest
    else if isPlain c || c = '\n' then push (some c) (readLongBasic .off rest)
    else none

/-- **Reads a long literal string.** -/
def readLongLiteral : List Char → Option (List Char × List Char)
  | [] => none
  | c :: rest =>
    if c = '\x27' then
      match closing '\x27' (c :: rest) with
      | some done => some done
      | none => push (some c) (readLongLiteral rest)
    else if c = '\r' && rest.head? = some '\n' then readLongLiteral rest
    else if isPlain c || c = '\n' then push (some c) (readLongLiteral rest)
    else none

/-- A long string begins after a line end that directly follows its opening quotes. -/
def skipFirstNewline (cs : List Char) : List Char := (readNewline cs).getD cs

/-- **Reads a string of any form**, from its opening quotes. -/
def readString : List Char → Option (String × List Char)
  | '"' :: '"' :: '"' :: rest =>
    (readLongBasic .off (skipFirstNewline rest)).map fun (s, rest) => (String.ofList s, rest)
  | '"' :: rest => (readBasic rest).map fun (s, rest) => (String.ofList s, rest)
  | '\x27' :: '\x27' :: '\x27' :: rest =>
    (readLongLiteral (skipFirstNewline rest)).map fun (s, rest) => (String.ofList s, rest)
  | '\x27' :: rest => (readLiteral rest).map fun (s, rest) => (String.ofList s, rest)
  | _ => none

/-! ## Keys -/

/-- One part of a key. -/
def readPart : List Char → Option (String × List Char)
  | '"' :: rest => (readBasic rest).map fun (s, rest) => (String.ofList s, rest)
  | '\x27' :: rest => (readLiteral rest).map fun (s, rest) => (String.ofList s, rest)
  | cs =>
    let bare := cs.takeWhile isBare
    if bare.isEmpty then none else some (String.ofList bare, cs.drop bare.length)

/-- The most parts of a key, and the deepest nesting of values, that are accepted. -/
def maxNesting : Nat := 79

/-- At most `limit` parts with points between them, blanks around each. -/
def readParts : Nat → List Char → Option (List String × List Char)
  | 0, _ => none
  | limit + 1, cs => do
    let (part, cs) ← readPart (skipGap cs)
    match skipGap cs with
    | '.' :: cs => do
      let (parts, cs) ← readParts limit cs
      some (part :: parts, cs)
    | cs => some ([part], cs)

/-- **Reads a key.** -/
def readKey (cs : List Char) : Option (List String × List Char) := readParts maxNesting cs

end ControlPlane.Toml
