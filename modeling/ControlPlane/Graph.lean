import ControlPlane.Json.Decoder

/-!
# Computation graphs

What a job computes is described by a graph that a planner outside produces.  Its body is any JSON
value and is never looked into; all that counts here are the names of the resources it refers to.
-/

namespace ControlPlane

/-- A graph: its body, and the names of the resources it refers to, as a set. -/
structure Graph where
  body : Json.Value
  references : Table Unit

namespace Graph

/-- A graph that refers to nothing. -/
def new (body : Json.Value) : Graph := ⟨body, .empty⟩

/-- The graph that refers to one more resource. -/
def referencing (g : Graph) (name : String) : Graph :=
  { g with references := g.references.insert name () }

/-- The size of the body's compact text, in bytes. -/
def encodedSize (g : Graph) : Nat := g.body.text.utf8ByteSize

def toJson (g : Graph) : Json.Value :=
  .object [("body", g.body), ("references", .array (g.references.names.map .string))]

open Json Decoder in
/-- Reads a graph. -/
def decoder : Decoder Graph := fun depth t => do
  let f ← record [("body", check value), ("references", check names)] depth t
  return { body := ← f.required "body" value
           references := ← f.orElse "references" names .empty }

end Graph

end ControlPlane
