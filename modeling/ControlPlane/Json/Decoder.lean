import ControlPlane.Json.Tree
import ControlPlane.Table

/-!
# Decoding JSON by shape

A decoder walks the tree of a text from left to right and yields a value of the type that the text
should have, or the first fault.  Decoders for the shapes that occur are built here once:

* scalars: `string`, `bool`, `integer`, `double`, and `value`, which takes any JSON;
* collections: `list`, `names` and `table`;
* `choice` — one of several names;
* `record` — an object with fixed fields, in any order and among others, or an array of them;
* `tagged` — an object of a tag and a content, of which the tag names the decoder.

Arrays and objects may be nested `maxDepth` deep, counted over the whole text; parts that are only
passed over are not counted.
-/

namespace ControlPlane.Json

/-- A decoder is told how many brackets may still be opened, plus one. -/
abbrev Decoder (α : Type) := Nat → Tree → Except Fault α

/-- How deep arrays and objects may be nested. -/
def maxDepth : Nat := 127

/-- What is left of the depth behind an opening bracket. -/
def enter : Nat → Except Fault Nat
  | depth + 2 => .ok (depth + 1)
  | _ => .error .malformed

/-! ## Endings -/

/-- The strict reading of an ending, with a result where it is the closing bracket. -/
def Ending.strict (e : Ending) (a : α) : Except Fault α :=
  match e with
  | .closed => .ok a
  | .cut => .error .endOfText
  | .stray => .error .malformed
  | .broken strict _ => .error strict
  | .noKey _ => .error .malformed

/-- The lenient reading of an ending. -/
def Ending.lenient : Ending → Except Fault Unit
  | .closed => .ok ()
  | .cut => .error .endOfText
  | .stray => .error .malformed
  | .broken _ lenient => .error lenient
  | .noKey _ => .error .malformed

/-- The reading of an ending where no further item is looked for. -/
def Ending.last (e : Ending) (a : α) : Except Fault α :=
  match e with
  | .closed => .ok a
  | .cut => .error .endOfText
  | _ => .error .malformed

/-- Items where no further one is looked for. -/
def Items.last (items : Items) (a : α) : Except Fault α :=
  match items with
  | .done e => e.last a
  | .cons _ _ => .error .malformed

/-- Members where no further one is looked for. -/
def Members.last (members : Members) (a : α) : Except Fault α :=
  match members with
  | .done e => e.last a
  | .cons _ _ _ => .error .malformed

/-! ## Passing over a part -/

mutual

/-- The lenient reading of a tree: only its breaks count. -/
def Tree.skip : Tree → Except Fault Unit
  | .array items => items.skip
  | .object members => members.skip
  | .broken _ lenient _ => .error lenient
  | _ => .ok ()

def Items.skip : Items → Except Fault Unit
  | .done e => e.lenient
  | .cons item rest => do item.skip; rest.skip

def Members.skip : Members → Except Fault Unit
  | .done e => e.lenient
  | .cons _ value rest => do value.skip; rest.skip

end

namespace Decoder

/-! ## Scalars -/

def null : Decoder Unit
  | _, .null => .ok ()
  | _, t => .error t.mismatch

def bool : Decoder Bool
  | _, .bool b => .ok b
  | _, t => .error t.mismatch

def string : Decoder String
  | _, .string s => s
  | _, t => .error t.mismatch

/-- A whole number from `low` to `high`. -/
def integer (low high : Int) : Decoder Int
  | _, .number (.ok (.int i)) => if low ≤ i && i ≤ high then .ok i else .error .mismatched
  | _, t => .error t.mismatch

/-- A natural number below `2 ^ width`. -/
def word (width : Nat) : Decoder Nat := fun depth t =>
  (integer 0 (Int.ofNat (Nat.pow 2 width - 1)) depth t).map Int.toNat

/-- Any number, as a double. -/
def double : Decoder Double
  | _, .number (.ok (.int i)) => .ok (Double.ofInt i)
  | _, .number (.ok (.double d)) => .ok d
  | _, t => .error t.mismatch

/-- A string of which `read` makes something. -/
def parsed (read : String → Option α) : Decoder α := fun depth t => do
  match read (← string depth t) with
  | some a => return a
  | none => throw .mismatched

/-- Null, or what `d` decodes. -/
def optional (d : Decoder α) : Decoder (Option α)
  | _, .null => .ok none
  | depth, t => (d depth t).map some

/-! ## Any value -/

mutual

/-- **Any JSON value**; of several members with one key the last counts, and the members come in
byte order of their keys. -/
def value : Decoder Value
  | _, .null => .ok .null
  | _, .bool b => .ok (.bool b)
  | _, .number n => n.map .number
  | _, .string s => s.map .string
  | depth, .array items => do
    let inner ← enter depth
    return .array (← itemValues inner items)
  | depth, .object members => do
    let inner ← enter depth
    return .object (Table.ofList (← memberValues inner members)).entries
  | _, .broken strict _ _ => .error strict

def itemValues : Nat → Items → Except Fault (List Value)
  | _, .done e => e.strict []
  | depth, .cons item rest => do
    let v ← value depth item
    let vs ← itemValues depth rest
    return v :: vs

def memberValues : Nat → Members → Except Fault (List (String × Value))
  | _, .done e => e.strict []
  | depth, .cons key item rest => do
    let k ← key
    let v ← value depth item
    let vs ← memberValues depth rest
    return (k, v) :: vs

end

/-! ## Collections -/

/-- The items of an array, each decoded by `d`. -/
def listItems (d : Tree → Except Fault α) : Items → Except Fault (List α)
  | .done e => e.strict []
  | .cons item rest => do
    let a ← d item
    let others ← listItems d rest
    return a :: others

/-- An array of things that `d` decodes. -/
def list (d : Decoder α) : Decoder (List α)
  | depth, .array items => do
    let inner ← enter depth
    listItems (d inner) items
  | _, t => .error t.mismatch

/-- The members of an object, each value decoded by `d`. -/
def tableMembers (d : Tree → Except Fault α) : Members → Except Fault (List (String × α))
  | .done e => e.strict []
  | .cons key item rest => do
    let k ← key
    let a ← d item
    let others ← tableMembers d rest
    return (k, a) :: others

/-- An object of things that `d` decodes; of several under one key the last counts. -/
def table (d : Decoder α) : Decoder (Table α)
  | depth, .object members => do
    let inner ← enter depth
    return Table.ofList (← tableMembers (d inner) members)
  | _, t => .error t.mismatch

/-- An array of strings, as a set. -/
def names : Decoder (Table Unit) := fun depth t => do
  return Table.ofList ((← list string depth t).map fun s => (s, ()))

/-! ## Names -/

/-- The thing that a name stands for. -/
def named (choices : List (String × α)) (name : String) : Except Fault α :=
  match choices.lookup name with
  | some a => .ok a
  | none => .error .mismatched

/-- **One of several names**: a string, or an object that has the name as its one key and null
under it. -/
def choice (choices : List (String × α)) : Decoder α
  | _, .string s => do named choices (← s)
  | depth, .object members => do
    let _ ← enter depth
    match members with
    | .done .closed => throw .malformed
    | .done .cut => throw .endOfText
    | .done .stray => throw .malformed
    | .done (.broken strict _) => throw strict
    | .done (.noKey asValue) => throw asValue
    | .cons key item rest =>
      let a ← named choices (← key)
      null depth item
      rest.last a
  | _, .broken _ _ asName => .error asName
  | _, _ => .error .malformed

/-! ## Records -/

/-- The fields that a record's text gives, and whether it gives them by position. -/
structure Fields where
  depth : Nat
  positional : Bool
  found : List (String × Tree)

/-- A field of a record: its name, and the check that its text is of the right shape. -/
abbrev Field := String × (Nat → Tree → Except Fault Unit)

/-- The check that goes with a decoder. -/
def check (d : Decoder α) : Nat → Tree → Except Fault Unit := fun depth t => do
  let _ ← d depth t

/-- The fields among members: a field must not come twice, and other members are passed over. -/
def recordMembers (fields : List Field) (depth : Nat) (found : List (String × Tree)) :
    Members → Except Fault (List (String × Tree))
  | .done e => e.strict found
  | .cons key item rest => do
    let k ← key
    match fields.lookup k with
    | some isShaped =>
      if (found.lookup k).isSome then throw .mismatched
      isShaped depth item
      recordMembers fields depth (found ++ [(k, item)]) rest
    | none =>
      item.skip
      recordMembers fields depth found rest

/-- The fields among items, one after the other. -/
def recordItems (depth : Nat) : List Field → Items → Except Fault (List (String × Tree))
  | [], items => items.last []
  | _ :: _, .done e => e.strict []
  | (name, isShaped) :: fields, .cons item rest => do
    isShaped depth item
    let others ← recordItems depth fields rest
    return (name, item) :: others

/-- **The fields of a record**, from an object or an array. -/
def record (fields : List Field) : Decoder Fields
  | depth, .object members => do
    let inner ← enter depth
    return ⟨inner, false, ← recordMembers fields inner [] members⟩
  | depth, .array items => do
    let inner ← enter depth
    return ⟨inner, true, ← recordItems inner fields items⟩
  | _, t => .error t.mismatch

/-- A field that has to be there. -/
def Fields.required (f : Fields) (name : String) (d : Decoder α) : Except Fault α :=
  match f.found.lookup name with
  | some t => d f.depth t
  | none => .error .mismatched

/-- A field with a value for when it is not there. -/
def Fields.orElse (f : Fields) (name : String) (d : Decoder α) (missing : α) : Except Fault α :=
  match f.found.lookup name with
  | some t => d f.depth t
  | none => .ok missing

/-- A field that may be left out of an object, but not out of an array. -/
def Fields.optional (f : Fields) (name : String) (d : Decoder α) : Except Fault (Option α) :=
  match f.found.lookup name with
  | some t => Decoder.optional d f.depth t
  | none => if f.positional then .error .mismatched else .ok none

/-! ## Tag and content -/

/-- What has been read of an object of tag and content. -/
inductive Tagged (α : Type) where
  | nothing
  | tag (d : Decoder α)
  | content (t : Tree)
  | both (a : α)

/-- **Tag and content among members**, in either order and among others.  A content that comes
before its tag is read as any JSON value first. -/
def taggedMembers (tagKey contentKey : String) (choices : List (String × Decoder α)) (depth : Nat)
    (state : Tagged α) : Members → Except Fault α
  | .done e =>
    match state with
    | .both a => e.strict a
    | _ => do e.strict (); throw .mismatched
  | .cons key item rest => do
    let k ← key
    if k = tagKey then
      match state with
      | .nothing =>
        let d ← choice choices depth item
        taggedMembers tagKey contentKey choices depth (.tag d) rest
      | .content t =>
        let d ← choice choices depth item
        let a ← d depth t
        taggedMembers tagKey contentKey choices depth (.both a) rest
      | _ => throw .mismatched
    else if k = contentKey then
      match state with
      | .nothing =>
        let _ ← value depth item
        taggedMembers tagKey contentKey choices depth (.content item) rest
      | .tag d =>
        let a ← d depth item
        taggedMembers tagKey contentKey choices depth (.both a) rest
      | _ => throw .mismatched
    else
      item.skip
      taggedMembers tagKey contentKey choices depth state rest

/-- **A tag and a content**, as an object or as an array of the two. -/
def tagged (tagKey contentKey : String) (choices : List (String × Decoder α)) : Decoder α
  | depth, .object members => do
    let inner ← enter depth
    taggedMembers tagKey contentKey choices inner .nothing members
  | depth, .array items => do
    let inner ← enter depth
    match items with
    | .done e => do e.strict (); throw .mismatched
    | .cons tag (.done e) => do
      let _ ← choice choices inner tag
      e.strict ()
      throw .mismatched
    | .cons tag (.cons content rest) =>
      let d ← choice choices inner tag
      let a ← d inner content
      rest.last a
  | _, t => .error t.mismatch

end Decoder

/-! ## Whole texts -/

/-- **Decoding a text**: nothing but blanks may follow the value. -/
def decode (d : Decoder α) (text : List Char) : Except Fault α := do
  let (tree, rest) := Tree.ofText text
  let a ← d (maxDepth + 1) tree
  match rest with
  | some rest => if (skipGap rest).isEmpty then return a else throw .malformed
  | none => throw .malformed

end ControlPlane.Json
