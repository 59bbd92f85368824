import ControlPlane.Config

/-!
# Job records

What the cluster keeps of a job: its settings, how far it has come, and when that was.

* `JobStatus` — how far a job has come; its last three values are the outcomes.
* `Record` — everything that is kept in one row.
-/

namespace ControlPlane

/-! ## Status -/

/-- How far a job has come on the cluster. -/
inductive JobStatus where
  | registered
  | deployed
  | submitted
  | running
  | completed
  | failed
  | interrupted
  deriving DecidableEq, Repr, Inhabited

namespace JobStatus

def all : List JobStatus :=
  [.registered, .deployed, .submitted, .running, .completed, .failed, .interrupted]

/-- The name of a status, in texts and in messages. -/
def name : JobStatus → String
  | .registered => "registered"
  | .deployed => "deployed"
  | .submitted => "submitted"
  | .running => "running"
  | .completed => "completed"
  | .failed => "failed"
  | .interrupted => "interrupted"

/-- Whether the execution has reached its outcome. -/
def isFinished : JobStatus → Bool
  | .completed | .failed | .interrupted => true
  | _ => false

def decoder : Json.Decoder JobStatus := .choice (all.map fun s => (s.name, s))

end JobStatus

/-! ## Records -/

/-- A job as the registry knows it.  Times are counted in seconds. -/
structure Record where
  name : String
  config : JobConfig
  status : JobStatus
  /-- Whether an execution has been accepted for the graph. -/
  executionStarted : Bool
  /-- The reason of a failure. -/
  failure : Option String
  createdAt : Nat
  /-- The time of the last change of status. -/
  updatedAt : Nat
  deriving DecidableEq

namespace Record

/-- The record of a job that has just been registered. -/
def new (name : String) (config : JobConfig) (now : Nat) : Record :=
  ⟨name, config, .registered, false, none, now, now⟩

/-- The record with another status. -/
def advance (r : Record) (status : JobStatus) (now : Nat) : Record :=
  { r with status := status, updatedAt := now }

def toJson (r : Record) : Json.Value :=
  .object [("name", .string r.name), ("config", r.config.toJson),
    ("status", .string r.status.name), ("execution_started", .bool r.executionStarted),
    ("failure", match r.failure with | some reason => .string reason | none => .null),
    ("created_at", .number (.int r.createdAt)), ("updated_at", .number (.int r.updatedAt))]

open Json Decoder in
/-- Reads a record; only the failure may be left out. -/
def decoder : Decoder Record := fun depth t => do
  let f ← record [("name", check string), ("config", check JobConfig.decoder),
    ("status", check JobStatus.decoder), ("execution_started", check bool),
    ("failure", check (Decoder.optional string)), ("created_at", check (word 64)),
    ("updated_at", check (word 64))] depth t
  return { name := ← f.required "name" string
           config := ← f.required "config" JobConfig.decoder
           status := ← f.required "status" JobStatus.decoder
           executionStarted := ← f.required "execution_started" bool
           failure := ← f.optional "failure" string
           createdAt := ← f.required "created_at" (word 64)
           updatedAt := ← f.required "updated_at" (word 64) }

end Record

end ControlPlane
