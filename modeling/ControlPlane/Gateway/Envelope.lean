import ControlPlane.Cluster.Operation

/-!
# What travels between a client and the gateway

The paths of jobs, and the envelope in which every answer of the gateway stands.

* `jobPath`, `jobSubpath` — the paths.
* `Envelope` — success with data, or a failure with its message.
-/

namespace ControlPlane.Gateway

/-! ## Paths -/

/-- The path below which the jobs are. -/
def jobsPath : String := "/api/v1/jobs"

/-- The path of a job. -/
def jobPath (job : String) : String := s!"{jobsPath}/{job}"

/-- The path of a part of a job. -/
def jobSubpath (job part : String) : String := s!"{jobsPath}/{job}/{part}"

/-! ## Envelopes -/

/-- An answer of the gateway. -/
structure Envelope (α : Type) where
  success : Bool
  data : Option α
  error : Option String
  deriving DecidableEq, Repr

namespace Envelope

def ok (data : α) : Envelope α := ⟨true, some data, none⟩

def failure (message : String) : Envelope α := ⟨false, none, some message⟩

/-- Members that are not there are left out. -/
def toJson (data : α → Json.Value) (e : Envelope α) : Json.Value :=
  .object (("success", .bool e.success)
    :: ((e.data.map fun a => ("data", data a)).toList
      ++ (e.error.map fun m => ("error", Json.Value.string m)).toList))

open Json Decoder in
/-- Reads an envelope of things that `d` decodes. -/
def decoder (d : Decoder α) : Decoder (Envelope α) := fun depth t => do
  let f ← record [("success", check bool), ("data", check (Decoder.optional d)),
    ("error", check (Decoder.optional string))] depth t
  return { success := ← f.required "success" bool
           data := ← f.optional "data" d
           error := ← f.optional "error" string }

end Envelope

end ControlPlane.Gateway
