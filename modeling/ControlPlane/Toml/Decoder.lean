import ControlPlane.Table
import ControlPlane.Toml.Value

/-!
# Decoding TOML values by shape

What a value is decoded to depends on what is asked of it.  A record is taken from a table, in any
order and among other keys, or from an array, field by field; a date stands for a table that holds
its text under one reserved key.

* `Value.string?`, `Value.below?`, `Value.choice?` — scalars.
* `Fields` — the fields of a record.
* `Value.table?` — a table of values of one shape.
-/

namespace ControlPlane.Toml

/-- The key under which a date stands for itself where a table is asked for. -/
def datetimeKey : String := "$__toml_private_datetime"

/-- The entries of a value where a table is asked for. -/
def Value.entries? : Value → Option (List (String × Value))
  | .table entries => some entries
  | .datetime d => some [(datetimeKey, .string (String.ofList d.text))]
  | _ => none

/-! ## Scalars -/

def Value.string? : Value → Option String
  | .string s => some s
  | _ => none

/-- A whole number below `bound`. -/
def Value.below? (bound : Nat) : Value → Option Nat
  | .integer i => if 0 ≤ i && i < bound then some i.toNat else none
  | _ => none

/-- Whether a value is an empty array or table. -/
def Value.isHollow : Value → Bool
  | .array [] => true
  | .table [] => true
  | _ => false

/-- **One of several names**: a string, or a table with the name as its one key and nothing in the
value under it. -/
def Value.choice? (choices : List (String × α)) : Value → Option α
  | .string s => choices.lookup s
  | .table [(name, inner)] => if inner.isHollow then choices.lookup name else none
  | _ => none

/-! ## Records and tables -/

/-- The fields that a value gives to a record, by name. -/
abbrev Fields := List (String × Value)

/-- **The fields of a record.**  The items of an array are its fields one after the other, and
those beyond the last field are left alone. -/
def Value.fields? (names : List String) : Value → Option Fields
  | .array items => some (names.zip items)
  | v => v.entries?

/-- A field with a value for when it is not there. -/
def Fields.orElse (f : Fields) (name : String) (read : Value → Option α) (missing : α) : Option α :=
  match f.lookup name with
  | some v => read v
  | none => some missing

/-- A table of values of one shape. -/
def Value.table? (read : Value → Option α) (v : Value) : Option (Table α) := do
  let entries ← v.entries?
  let pairs ← entries.mapM fun e => (read e.2).map fun a => (e.1, a)
  some (Table.ofList pairs)

end ControlPlane.Toml
