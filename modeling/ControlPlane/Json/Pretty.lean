import ControlPlane.Json.Value

/-!
# JSON for people

The text of a JSON value with every item and member on a line of its own, two blanks further in than
the bracket around it.  An empty array or object stays in one piece.
-/

namespace ControlPlane.Json

/-- The end of a line, and the blanks before the next one. -/
def newLine (depth : Nat) : List Char := '\n' :: List.replicate (2 * depth) ' '

mutual

/-- The text of a value that stands `depth` brackets deep. -/
def Value.prettyChars (depth : Nat) : Value → List Char
  | .array [] => ['[', ']']
  | .array items => '[' :: (prettyItems (depth + 1) items ++ newLine depth ++ [']'])
  | .object [] => ['\x7b', '\x7d']
  | .object members => '\x7b' :: (prettyMembers (depth + 1) members ++ newLine depth ++ ['\x7d'])
  | v => v.chars

/-- The items of an array, each on its line. -/
def prettyItems (depth : Nat) : List Value → List Char
  | [] => []
  | [item] => newLine depth ++ item.prettyChars depth
  | item :: rest => newLine depth ++ item.prettyChars depth ++ ',' :: prettyItems depth rest

/-- The members of an object, each on its line. -/
def prettyMembers (depth : Nat) : List (String × Value) → List Char
  | [] => []
  | [(key, value)] => newLine depth ++ quoted key ++ ':' :: ' ' :: value.prettyChars depth
  | (key, value) :: rest =>
    newLine depth ++ quoted key ++ ':' :: ' ' :: (value.prettyChars depth
      ++ ',' :: prettyMembers depth rest)

end

/-- **The text of a value for people.** -/
def Value.pretty (v : Value) : String := String.ofList (v.prettyChars 0)

end ControlPlane.Json
