/-!
# Blank characters, words and lines

The texts this library reads from people and from the kernel are cut at *blank* characters: those
with the Unicode property White_Space.  Core's `Char.isWhitespace` knows only the ASCII ones, and
of those leaves two out, so the property is written down here.

* `isBlank` — the property, as a table of its ranges.
* `trimBlank` — a text without the blanks at its two ends.
* `words` — the maximal runs of characters that are not blank.
* `lines` — the lines of a text, without their line ends.
-/

namespace ControlPlane

/-! ## The property -/

/-- The Unicode property White_Space. -/
def isBlank (c : Char) : Bool :=
  let n := c.toNat
  (9 ≤ n && n ≤ 13) || n = 0x20 || n = 0x85 || n = 0xA0 || n = 0x1680
    || (0x2000 ≤ n && n ≤ 0x200A) || n = 0x2028 || n = 0x2029 || n = 0x202F || n = 0x205F
    || n = 0x3000

/-- The control characters: the C0 block, DEL and the C1 block. -/
def isControl (c : Char) : Bool :=
  let n := c.toNat
  n < 0x20 || (0x7F ≤ n && n ≤ 0x9F)

/-! ## Cutting texts -/

/-- A text without the blanks at its two ends. -/
def trimBlank (s : List Char) : List Char :=
  ((s.dropWhile isBlank).reverse.dropWhile isBlank).reverse

/-- The pieces between the characters that satisfy `sep`, empty ones included: a text with `n`
separators has `n + 1` pieces. -/
def pieces (sep : Char → Bool) : List Char → List (List Char)
  | [] => [[]]
  | c :: rest =>
    if sep c then [] :: pieces sep rest
    else match pieces sep rest with
      | [] => [[c]]
      | p :: ps => (c :: p) :: ps

/-- **Words**: the maximal runs of characters that are not blank. -/
def words (s : List Char) : List (List Char) :=
  (pieces isBlank s).filter (fun w => !w.isEmpty)

/-- A line that a line feed ended, without the carriage return that may stand before it. -/
def chompReturn (line : List Char) : List Char :=
  if line.getLast? = some '\r' then line.dropLast else line

/-- The lines among pieces cut at line feeds: every piece but the last was ended by a line feed,
and the last one counts only when something stands in it. -/
def linesOfPieces : List (List Char) → List (List Char)
  | [] => []
  | [last] => if last.isEmpty then [] else [last]
  | line :: more => chompReturn line :: linesOfPieces more

/-- **Lines** of a text.  A carriage return belongs to the line end only before a line feed. -/
def lines (s : List Char) : List (List Char) :=
  linesOfPieces (pieces (· = '\n') s)

/-- The text before the first occurrence of `sep` and the text after it. -/
def splitOnce (sep : List Char) : List Char → Option (List Char × List Char)
  | [] => if sep.isEmpty then some ([], []) else none
  | c :: rest =>
    if sep.isPrefixOf (c :: rest) then some ([], (c :: rest).drop sep.length)
    else (splitOnce sep rest).map fun (before, after) => (c :: before, after)

/-- The text before the last `sep` and the text after it. -/
def splitLast (sep : Char) (s : List Char) : Option (List Char × List Char) :=
  let after := s.reverse.takeWhile (· ≠ sep)
  match s.reverse.drop after.length with
  | [] => none
  | _ :: before => some (before.reverse, after.reverse)

/-- The rest of a text that begins with `start`. -/
def dropStart? (start s : List Char) : Option (List Char) :=
  if start.isPrefixOf s then some (s.drop start.length) else none

end ControlPlane
