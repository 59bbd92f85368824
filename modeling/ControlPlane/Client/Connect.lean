import ControlPlane.Client.Handle

/-!
# Connecting

A client picks its cluster by its configuration: one in its own process, or the one behind an
address.  A cluster in the same process needs something to run executions on, and so the client has
to be where tasks can run.
-/

namespace ControlPlane

/-- A client: its settings and the way to its cluster. -/
structure Connection where
  config : ClientConfig
  transport : Transport

namespace Connection

/-- The text about a missing place for tasks. -/
def noRuntime : String := "tasks cannot run here"

/-- **Connects** by a configuration.  Nothing is sent yet. -/
def connect (config : ClientConfig) (canRun : Bool) : Except ClusterError Connection :=
  match config.cluster.mode with
  | .remote => .ok ⟨config, .remote⟩
  | .inProcess => if canRun then .ok ⟨config, .inProcess⟩ else .error (.runtime noRuntime)

/-- A new handle. -/
def job (_ : Connection) (name : String) : Except JobError Handle := Handle.new name

end Connection

end ControlPlane
