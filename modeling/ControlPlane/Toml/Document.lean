import ControlPlane.Toml.Number
import ControlPlane.Toml.Text
import ControlPlane.Toml.Value

/-!
# TOML documents: reading

A document is a sequence of lines: blank ones, comments, pairs of a key and a value, and headers,
which say to which table the pairs after them belong.

* `readValue` — a value, with arrays over several lines and tables on one.
* `Draft.read` — the lines of a document, one after the other.
* `parse?` — the table that a whole text describes.
-/

namespace ControlPlane.Toml

/-! ## Between values -/

/-- A text after a comment that begins here, up to the end of its line. -/
def skipComment : List Char → List Char
  | '#' :: rest => rest.dropWhile isPlain
  | cs => cs

/-- A text from its first character that is neither blank nor line end nor in a comment; looked
for in at most `steps` lines. -/
def skipLines : Nat → List Char → List Char
  | 0, cs => cs
  | steps + 1, cs =>
    match readNewline (skipComment (skipGap cs)) with
    | some rest => skipLines steps rest
    | none => skipGap cs

/-- The same without a limit: no text has more lines than characters. -/
def skipAnyGap (cs : List Char) : List Char := skipLines cs.length cs

/-- The text after what may follow the last item on a line. -/
def readLineEnd (cs : List Char) : Option (List Char) :=
  let cs := skipComment (skipGap cs)
  if cs.isEmpty then some [] else readNewline cs

/-! ## Values -/

/-- A word that stands for a value. -/
def readWord (word : String) (value : Value) (cs : List Char) : Option (Value × List Char) :=
  if word.toList.isPrefixOf cs then some (value, cs.drop word.length) else none

/-- A date, a float or an integer, whichever the text is first. -/
def readNumeric (cs : List Char) : Option (Value × List Char) :=
  match Datetime.read cs with
  | some (d, rest) => some (.datetime d, rest)
  | none =>
    match readFloat cs with
    | some (d, rest) => some (.float d, rest)
    | none => (readInteger cs).map fun (i, rest) => (.integer i, rest)

/-- A value that holds no other ones. -/
def readScalar (cs : List Char) : Option (Value × List Char) :=
  match cs with
  | [] => none
  | c :: _ =>
    if c = '"' || c = '\x27' then (readString cs).map fun (s, rest) => (.string s, rest)
    else if c = 't' then readWord "true" (.boolean true) cs
    else if c = 'f' then readWord "false" (.boolean false) cs
    else readNumeric cs

mutual

/-- **Reads a value**, with brackets nested at most `depth` deep. -/
def readValue : Nat → Nat → List Char → Option (Value × List Char)
  | 0, _, _ => none
  | steps + 1, depth, cs =>
    match cs, depth with
    | '[' :: rest, depth + 1 => do
      let (items, rest) ← readItems steps depth rest
      some (.array items, rest)
    | '\x7b' :: rest, depth + 1 =>
      match skipGap rest with
      | '\x7d' :: rest => some (.table [], rest)
      | rest => do
        let (pairs, rest) ← readPairs steps depth rest
        let rows ← Rows.ofPairs pairs
        some (.table (finishRows rows), rest)
    | _, _ => readScalar cs

/-- The items of an array, up to its closing bracket.  A comma may follow the last one. -/
def readItems : Nat → Nat → List Char → Option (List Value × List Char)
  | 0, _, _ => none
  | steps + 1, depth, cs =>
    match skipAnyGap cs with
    | ']' :: rest => some ([], rest)
    | cs => do
      let (item, cs) ← readValue steps depth cs
      match skipAnyGap cs with
      | ',' :: rest => do
        let (items, rest) ← readItems steps depth rest
        some (item :: items, rest)
      | ']' :: rest => some ([item], rest)
      | _ => none

/-- The pairs of a table on one line, up to its closing brace. -/
def readPairs : Nat → Nat → List Char → Option (List (List String × Value) × List Char)
  | 0, _, _ => none
  | steps + 1, depth, cs => do
    let (key, cs) ← readKey cs
    match cs with
    | '=' :: cs =>
      let (value, cs) ← readValue steps depth (skipGap cs)
      match skipGap cs with
      | ',' :: rest => do
        let (pairs, rest) ← readPairs steps depth rest
        some ((key, value) :: pairs, rest)
      | '\x7d' :: rest => some ([(key, value)], rest)
      | _ => none
    | _ => none

end

/-- A value with as many steps as any text of that length needs. -/
def readAnyValue (cs : List Char) : Option (Value × List Char) :=
  readValue (2 * cs.length + 2) maxNesting cs

/-! ## Lines -/

/-- A document of which some lines have been read: its rows, and the path of the header to whose
table the next pairs belong. -/
structure Draft where
  rows : Rows
  path : List String

namespace Draft

/-- The document before its first line. -/
def empty : Draft := ⟨[], []⟩

/-- A pair of a key and a value, added to the table of the last header. -/
def addPair (d : Draft) (key : List String) (value : Value) : Option Draft := do
  let rows ← d.rows.descend (Rows.assign value key) d.path
  some { d with rows := rows }

/-- A header, which `change` carries out in the table above. -/
def addHeader (d : Draft) (change : String → Rows → Option Rows) (path : List String) :
    Option Draft := do
  let key ← path.getLast?
  let rows ← d.rows.descend (change key) path.dropLast
  some ⟨rows, path⟩

/-- A line that holds a pair. -/
def readPair (d : Draft) (cs : List Char) : Option (Draft × List Char) := do
  let (key, cs) ← readKey cs
  match cs with
  | '=' :: cs =>
    let (value, cs) ← readAnyValue (skipGap cs)
    let cs ← readLineEnd cs
    some (← d.addPair key value, cs)
  | _ => none

/-- A line that holds a header, after its opening bracket. -/
def readHeader (d : Draft) (cs : List Char) : Option (Draft × List Char) :=
  match cs with
  | '[' :: cs => do
    match ← readKey cs with
    | (path, ']' :: ']' :: cs) =>
      let cs ← readLineEnd cs
      some (← d.addHeader Rows.openElement path, cs)
    | _ => none
  | cs => do
    match ← readKey cs with
    | (path, ']' :: cs) =>
      let cs ← readLineEnd cs
      some (← d.addHeader Rows.openTable path, cs)
    | _ => none

/-- **Reads one line.** -/
def readLine (d : Draft) (cs : List Char) : Option (Draft × List Char) :=
  match skipGap cs with
  | [] => some (d, [])
  | '[' :: cs => d.readHeader cs
  | c :: cs =>
    if c = '#' || c = '\n' || c = '\r' then (readLineEnd (c :: cs)).map fun cs => (d, cs)
    else d.readPair (c :: cs)

/-- **Reads the lines of a document**, at most `steps` of them. -/
def read : Nat → Draft → List Char → Option Draft
  | 0, _, _ => none
  | steps + 1, d, cs => do
    let (d, rest) ← d.readLine cs
    if rest.isEmpty then some d else d.read steps rest

end Draft

/-! ## Whole texts -/

/-- A text without a byte order mark. -/
def skipMark : List Char → List Char
  | '\uFEFF' :: rest => rest
  | cs => cs

/-- **The table that a text describes**, if the text is a TOML document. -/
def parse? (text : List Char) : Option (List (String × Value)) := do
  let cs := skipMark text
  let d ← Draft.empty.read (cs.length + 1) cs
  some (finishRows d.rows)

end ControlPlane.Toml
