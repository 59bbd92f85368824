import ControlPlane.Json.Literal

/-!
# The tree of a JSON text, up to the first break

What a JSON text says is needed in many shapes, and a text may be wrong in two ways at once: it may
not be JSON, and what stands before the break may be of the wrong shape.  The fault that a reader
meets first, from left to right, is the one that counts.

So a text is first turned into a `Tree` that reaches to the place where the text breaks, and says
there what is wrong.  A decoder walks the tree from left to right; it meets a break where a reader
of the text would meet it.  Parts that nobody asks for are only passed over, and a break may be one
for a reader that wants the value and none for one that passes over it.

* `Tree`, `Items`, `Members` — the tree, and how a list of items or members ends.
* `Tree.ofText` — the tree of a text, and the text after it.
-/

namespace ControlPlane.Json

/-! ## Trees -/

/-- How the items of an array or the members of an object end. -/
inductive Ending where
  /-- With the closing bracket. -/
  | closed
  /-- The text ends after an opening bracket, an item or a member. -/
  | cut
  /-- After an item or a member stands neither a comma nor the closing bracket. -/
  | stray
  /-- The next item or key does not begin, or its key does not end; the two faults are those of
  the strict and of the lenient reading. -/
  | broken (strict lenient : Fault)
  /-- Where the first key should stand, something else does; `asValue` is the fault of reading it
  as a value that should be a string. -/
  | noKey (asValue : Fault)
  deriving DecidableEq, Repr

mutual

/-- The tree of a JSON text.  A number or string whose value cannot be had holds the fault.  A
broken value holds the faults of its strict and lenient readings, and the fault of reading a name
there, which begins with a quote and so does not look into a number or a word. -/
inductive Tree where
  | null
  | bool (b : Bool)
  | number (value : Except Fault Number)
  | string (value : Except Fault String)
  | array (items : Items)
  | object (members : Members)
  | broken (strict lenient asName : Fault)

/-- The items of an array. -/
inductive Items where
  | done (ending : Ending)
  | cons (item : Tree) (rest : Items)

/-- The members of an object. -/
inductive Members where
  | done (ending : Ending)
  | cons (key : Except Fault String) (value : Tree) (rest : Members)

end

instance : Inhabited Tree := ⟨.null⟩

/-- A part of a text together with the text after it, or with nothing when the text broke in it. -/
abbrev Scan (α : Type) := α × Option (List Char)

/-! ## Scalars -/

/-- The string that begins after an opening quote. -/
def scanString (cs : List Char) : Scan Tree :=
  match skipString cs with
  | .ok rest => (.string ((readString cs).map fun r => String.ofList r.1), some rest)
  | .error lenient =>
    match readString cs with
    | .ok _ => (.broken lenient lenient lenient, none)
    | .error strict => (.broken strict lenient strict, none)

/-- The number that a text begins with. -/
def scanNumber (cs : List Char) : Scan Tree :=
  match readNumberText cs with
  | .ok (t, rest) => (.number t.value, some rest)
  | .error strict => (.broken strict .malformed .malformed, none)

/-- The word of which the first letter has been read. -/
def scanWord (tree : Tree) (letters cs : List Char) : Scan Tree :=
  match readWord letters cs with
  | .ok rest => (tree, some rest)
  | .error f => (.broken f f .malformed, none)

/-- The fault of reading a tree as something that it is not: its own fault where it has one. -/
def Tree.mismatch : Tree → Fault
  | .number (.error f) => f
  | .string (.error f) => f
  | .broken strict _ _ => strict
  | _ => .mismatched

/-- The key that begins after an opening quote. -/
def scanKey (cs : List Char) : Except Ending (Except Fault String × List Char) :=
  match skipString cs with
  | .ok rest => .ok ((readString cs).map fun r => String.ofList r.1, rest)
  | .error lenient =>
    match readString cs with
    | .ok _ => .error (.broken lenient lenient)
    | .error strict => .error (.broken strict lenient)

/-! ## Scanning

Each function takes a count of the steps still allowed.  A step either consumes a character or
hands over to a function that does, and no character is waited for longer than three steps, so four
steps for each character are always enough.
-/

mutual

/-- The tree of the value that a text begins with. -/
def scan : Nat → List Char → Scan Tree
  | 0, _ => (.broken .malformed .malformed .malformed, none)
  | steps + 1, cs =>
    match skipGap cs with
    | [] => (.broken .endOfText .endOfText .endOfText, none)
    | c :: rest =>
      if c = '"' then scanString rest
      else if c = '\x7b' then
        let (members, rest) := scanFirstMember steps rest
        (.object members, rest)
      else if c = '[' then
        let (items, rest) := scanFirstItem steps rest
        (.array items, rest)
      else if c = 'n' then scanWord .null ['u', 'l', 'l'] rest
      else if c = 't' then scanWord (.bool true) ['r', 'u', 'e'] rest
      else if c = 'f' then scanWord (.bool false) ['a', 'l', 's', 'e'] rest
      else if c = '-' || Decimal.isDigit c then scanNumber (c :: rest)
      else (.broken .malformed .malformed .malformed, none)

/-- The items that begin after an opening bracket. -/
def scanFirstItem : Nat → List Char → Scan Items
  | 0, _ => (.done .stray, none)
  | steps + 1, cs =>
    match skipGap cs with
    | [] => (.done .cut, none)
    | c :: rest => if c = ']' then (.done .closed, some rest) else scanItem steps (c :: rest)

/-- An item, and the items after it. -/
def scanItem : Nat → List Char → Scan Items
  | 0, _ => (.done .stray, none)
  | steps + 1, cs =>
    match scan steps cs with
    | (item, none) => (.cons item (.done .cut), none)
    | (item, some rest) =>
      let (items, rest) := scanItems steps rest
      (.cons item items, rest)

/-- The items after an item. -/
def scanItems : Nat → List Char → Scan Items
  | 0, _ => (.done .stray, none)
  | steps + 1, cs =>
    match skipGap cs with
    | [] => (.done .cut, none)
    | c :: rest =>
      if c = ']' then (.done .closed, some rest)
      else if c = ',' then
        match skipGap rest with
        | [] => (.done (.broken .endOfText .endOfText), none)
        | c :: rest =>
          if c = ']' then (.done (.broken .malformed .malformed), none)
          else scanItem steps (c :: rest)
      else (.done .stray, none)

/-- The members that begin after an opening brace. -/
def scanFirstMember : Nat → List Char → Scan Members
  | 0, _ => (.done .stray, none)
  | steps + 1, cs =>
    match skipGap cs with
    | [] => (.done .cut, none)
    | c :: rest =>
      if c = '\x7d' then (.done .closed, some rest)
      else if c = '"' then scanMember steps rest
      else (.done (.noKey (scan steps (c :: rest)).1.mismatch), none)

/-- A member from after the opening quote of its key, and the members after it. -/
def scanMember : Nat → List Char → Scan Members
  | 0, _ => (.done .stray, none)
  | steps + 1, cs =>
    match scanKey cs with
    | .error ending => (.done ending, none)
    | .ok (key, rest) =>
      match skipGap rest with
      | [] => (.cons key (.broken .endOfText .endOfText .endOfText) (.done .cut), none)
      | c :: rest =>
        if c = ':' then
          match scan steps rest with
          | (value, none) => (.cons key value (.done .cut), none)
          | (value, some rest) =>
            let (members, rest) := scanMembers steps rest
            (.cons key value members, rest)
        else (.cons key (.broken .malformed .malformed .malformed) (.done .cut), none)

/-- The members after a member. -/
def scanMembers : Nat → List Char → Scan Members
  | 0, _ => (.done .stray, none)
  | steps + 1, cs =>
    match skipGap cs with
    | [] => (.done .cut, none)
    | c :: rest =>
      if c = '\x7d' then (.done .closed, some rest)
      else if c = ',' then
        match skipGap rest with
        | [] => (.done (.broken .endOfText .endOfText), none)
        | c :: rest =>
          if c = '"' then scanMember steps rest
          else (.done (.broken .malformed .malformed), none)
      else (.done .stray, none)

end

/-- **The tree of a text**, and the text after it. -/
def Tree.ofText (cs : List Char) : Scan Tree := scan (4 * cs.length + 4) cs

end ControlPlane.Json
