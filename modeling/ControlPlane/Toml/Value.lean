import ControlPlane.Toml.Datetime
import ControlPlane.Number.Double

/-!
# TOML values, and documents under construction

A document is a table, but its text describes the table piecemeal: headers and dotted keys make
tables on the way to the one they name, and whether such a table may be extended later depends on
what made it.

* `Value` — a finished value.
* `Entry`, `Rows` — what stands under a key while a document is read.
* `Rows.assign`, `Rows.openTable`, `Rows.openElement` — the effects of a pair, of a table header
  and of an array header.
-/

namespace ControlPlane.Toml

/-- A TOML value. -/
inductive Value where
  | string (s : String)
  | integer (i : Int)
  | float (d : Double)
  | boolean (b : Bool)
  | datetime (d : Datetime)
  | array (items : List Value)
  | table (entries : List (String × Value))

instance : Inhabited Value := ⟨.boolean false⟩

/-! ## Tables under construction -/

/-- What made a table. -/
inductive Origin where
  /-- Its own header. -/
  | header
  /-- A header of a table below it. -/
  | implied
  /-- A dotted key. -/
  | dotted
  deriving DecidableEq, Repr

/-- What stands under a key while a document is read.  An array of tables has at least one. -/
inductive Entry where
  | value (v : Value)
  | table (origin : Origin) (rows : List (String × Entry))
  | tables (earlier : List (List (String × Entry))) (last : List (String × Entry))

/-- The entries of a table under construction, in the order in which their keys appeared. -/
abbrev Rows := List (String × Entry)

namespace Rows

/-- The rows with another entry under a key. -/
def put (key : String) (entry : Entry) : Rows → Rows
  | [] => [(key, entry)]
  | (k, old) :: rest => if k = key then (key, entry) :: rest else (k, old) :: put key entry rest

/-! ## Pairs -/

/-- **A pair of a key and a value.**  A dotted key makes the tables on its way; it may extend those
that dotted keys made, and pass through those that a header implied, but it neither extends nor
passes through one that has its own header. -/
def assign (value : Value) : List String → Rows → Option Rows
  | [], _ => none
  | [key], rows => if (rows.lookup key).isSome then none else some (rows.put key (.value value))
  | key :: next :: path, rows =>
    match rows.lookup key with
    | none =>
      (assign value (next :: path) []).map fun inner => rows.put key (.table .dotted inner)
    | some (.table origin inner) =>
      if origin = .header || (origin = .implied && path.isEmpty) then none
      else (assign value (next :: path) inner).map fun inner => rows.put key (.table origin inner)
    | some (.tables earlier last) =>
      if path.isEmpty then none
      else (assign value (next :: path) last).map fun last => rows.put key (.tables earlier last)
    | some (.value _) => none

/-! ## Headers -/

/-- **Changes the table at the path of a header**, making the tables that are missing on the way.
Of an array of tables the last one is meant. -/
def descend (change : Rows → Option Rows) : List String → Rows → Option Rows
  | [], rows => change rows
  | key :: path, rows =>
    match rows.lookup key with
    | none => (descend change path []).map fun inner => rows.put key (.table .implied inner)
    | some (.table origin inner) =>
      (descend change path inner).map fun inner => rows.put key (.table origin inner)
    | some (.tables earlier last) =>
      (descend change path last).map fun last => rows.put key (.tables earlier last)
    | some (.value _) => none

/-- A header names a table that is new or was only implied. -/
def openTable (key : String) (rows : Rows) : Option Rows :=
  match rows.lookup key with
  | none => some (rows.put key (.table .header []))
  | some (.table .implied inner) => some (rows.put key (.table .header inner))
  | _ => none

/-- An array header adds a table to an array of tables, which may be new. -/
def openElement (key : String) (rows : Rows) : Option Rows :=
  match rows.lookup key with
  | none => some (rows.put key (.tables [] []))
  | some (.tables earlier last) => some (rows.put key (.tables (earlier ++ [last]) []))
  | _ => none

/-- The rows of pairs, one after the other. -/
def ofPairs (pairs : List (List String × Value)) : Option Rows :=
  pairs.foldlM (fun rows p => rows.assign p.2 p.1) []

end Rows

/-! ## Finishing -/

mutual

/-- The value of an entry. -/
def Entry.finish : Entry → Value
  | .value v => v
  | .table _ rows => .table (finishRows rows)
  | .tables earlier last => .array (finishAll earlier ++ [.table (finishRows last)])

def finishRows : List (String × Entry) → List (String × Value)
  | [] => []
  | (key, entry) :: rest => (key, entry.finish) :: finishRows rest

def finishAll : List (List (String × Entry)) → List Value
  | [] => []
  | rows :: rest => .table (finishRows rows) :: finishAll rest

end

end ControlPlane.Toml
