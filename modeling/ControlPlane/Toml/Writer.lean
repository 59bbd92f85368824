import ControlPlane.Number.Decimal
import ControlPlane.Toml.Text

/-!
# TOML documents: writing

A string is written in the first of four forms that suits it: basic, literal, long basic, long
literal.  A basic form suits when no escape is needed, a literal one when the text can stand in it
as it is.  If none suits, a basic form with escapes is taken.

* `stringText`, `keyText` — strings and keys.
* `Section`, `documentText` — tables with their headers, a blank line between two of them.
-/

namespace ControlPlane.Toml

/-! ## What a text holds -/

/-- The length of the longest run of a character. -/
def longestRun (c : Char) (cs : List Char) : Nat :=
  (cs.foldl (fun (best, run) d => if d = c then (max best (run + 1), run + 1) else (best, 0))
    (0, 0)).1

/-- The characters that only an escape can express, line feeds aside. -/
def needsEscape (c : Char) : Bool := !isPlain c && c ≠ '\n'

/-! ## Escapes -/

/-- The escape of a character. -/
def escapeOf (c : Char) : List Char :=
  if c.toNat = 8 then ['\\', 'b']
  else if c = '\t' then ['\\', 't']
  else if c = '\n' then ['\\', 'n']
  else if c.toNat = 12 then ['\\', 'f']
  else if c = '\r' then ['\\', 'r']
  else if c = '"' then ['\\', '"']
  else if c = '\\' then ['\\', '\\']
  else '\\' :: 'u' :: Hex.upper 4 c.toNat

/-- Whether a character is escaped wherever it stands in a basic string. -/
def isAlwaysEscaped (long : Bool) (c : Char) : Bool :=
  if c = '\n' then !long else c = '\\' || c = '\t' || needsEscape c

/-- The inside of a basic string.  Of quotes in a row as many stand as they are as the form allows,
two in a long one and none in a short one; `run` of them have just been written. -/
def basicBody (long : Bool) (run : Nat) : List Char → List Char
  | [] => []
  | c :: rest =>
    if c = '"' then
      if run < (if long then 2 else 0) then c :: basicBody long (run + 1) rest
      else escapeOf c ++ basicBody long 0 rest
    else if isAlwaysEscaped long c then escapeOf c ++ basicBody long 0 rest
    else c :: basicBody long 0 rest

/-! ## The four forms -/

def basic (cs : List Char) : List Char := '"' :: (basicBody false 0 cs ++ ['"'])

def literal (cs : List Char) : List Char := '\x27' :: (cs ++ ['\x27'])

/-- A long form begins on a new line when its text has a line feed. -/
def longStart (cs : List Char) : List Char := if cs.contains '\n' then ['\n'] else []

def longBasic (cs : List Char) : List Char :=
  "\"\"\"".toList ++ longStart cs ++ basicBody true 0 cs ++ "\"\"\"".toList

def longLiteral (cs : List Char) : List Char :=
  "'''".toList ++ longStart cs ++ cs ++ "'''".toList

/-- **The text of a string.** -/
def stringText (s : String) : List Char :=
  let cs := s.toList
  let hasNewline := cs.contains '\n'
  let hasBackslash := cs.contains '\\'
  let hasControl := cs.any needsEscape
  if !hasControl && !hasBackslash && longestRun '"' cs = 0 && !hasNewline then basic cs
  else if !hasControl && longestRun '\x27' cs = 0 && !hasNewline then literal cs
  else if !hasControl && !hasBackslash && longestRun '"' cs ≤ 2 then longBasic cs
  else if !hasControl && longestRun '\x27' cs ≤ 2 then longLiteral cs
  else if hasNewline then longBasic cs
  else basic cs

/-- **The text of one part of a key**: bare where possible, and otherwise a string on one line. -/
def keyText (s : String) : List Char :=
  let cs := s.toList
  let hasControl := cs.any fun c => !isPlain c
  if !cs.isEmpty && cs.all isBare then cs
  else if !hasControl && !cs.contains '\\' && !cs.contains '"' then basic cs
  else if !hasControl && !cs.contains '\x27' then literal cs
  else basic cs

/-! ## Documents -/

/-- A value that stands in a pair. -/
inductive Scalar where
  | string (s : String)
  | integer (i : Int)
  deriving DecidableEq, Repr

def Scalar.text : Scalar → List Char
  | string s => stringText s
  | integer i => Decimal.ofInt i

/-- A table with its header and the pairs below it. -/
structure Section where
  path : List String
  pairs : List (String × Scalar)
  deriving DecidableEq, Repr

/-- The parts of a header with points between them. -/
def pathText : List String → List Char
  | [] => []
  | [part] => keyText part
  | part :: rest => keyText part ++ '.' :: pathText rest

def pairText (pair : String × Scalar) : List Char :=
  keyText pair.1 ++ " = ".toList ++ pair.2.text ++ ['\n']

def Section.text (s : Section) : List Char :=
  '[' :: (pathText s.path ++ ']' :: '\n' :: s.pairs.flatMap pairText)

/-- **The text of a document**: its sections, a blank line between two of them. -/
def documentText : List Section → List Char
  | [] => []
  | [s] => s.text
  | s :: rest => s.text ++ '\n' :: documentText rest

end ControlPlane.Toml
