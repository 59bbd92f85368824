import ControlPlane.Json.Value

/-!
# Looking into JSON values

What a value holds, for callers that take a value of any shape.  Where there is nothing of the kind
that is asked for, the answer is none.
-/

namespace ControlPlane.Json.Value

/-- **The member of an object** under a key; null where there is none. -/
def member (v : Value) (key : String) : Value :=
  match v with
  | .object members => (members.lookup key).getD .null
  | _ => .null

def isNull : Value → Bool
  | .null => true
  | _ => false

def string? : Value → Option String
  | .string s => some s
  | _ => none

def int? : Value → Option Int
  | .number (.int i) => some i
  | _ => none

/-- A truth value; null counts as false. -/
def flag? : Value → Option Bool
  | .bool b => some b
  | .null => some false
  | _ => none

/-- The items of an array; null has none. -/
def items? : Value → Option (List Value)
  | .array items => some items
  | .null => some []
  | _ => none

/-- The members of an object; null has none. -/
def members? : Value → Option (List (String × Value))
  | .object members => some members
  | .null => some []
  | _ => none

end ControlPlane.Json.Value
