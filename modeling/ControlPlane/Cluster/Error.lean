import ControlPlane.Job.Name
import ControlPlane.Registry.Store

/-!
# Failures of the cluster

What can go wrong with a call to the cluster, whether it runs in the same process or behind an
address, with the message and the HTTP status of each failure.
-/

namespace ControlPlane

/-- Why a call to the cluster failed. -/
inductive ClusterError where
  | jobNotFound (job : String)
  | invalidJobName (job : String)
  | jobAlreadyExists (job : String)
  | invalidStatus (job : String) (status : JobStatus) (operation expected : String)
  | resourceConflict (job name : String)
  | graphRejected (job : String) (missing : List String)
  | executionAlreadyStarted (job : String)
  | notRunning (job : String)
  /-- The registry store gave no answer. -/
  | state (cause : StoreError)
  /-- No answer came from the address of the cluster. -/
  | transport (message : String)
  /-- The cluster behind the address answered with a failure. -/
  | remote (status : Nat) (message : String)
  /-- The answer could not be decoded. -/
  | codec (message : String)
  /-- There is nothing to run executions on. -/
  | runtime (message : String)
  deriving DecidableEq, Repr

namespace ClusterError

/-- The message of a failure. -/
def message : ClusterError → String
  | jobNotFound job => s!"job '{job}' not found"
  | invalidJobName job => Job.invalidName job
  | jobAlreadyExists job => s!"job '{job}' already exists"
  | invalidStatus job status operation expected =>
    s!"job '{job}' is {status.name}, {operation} requires {expected}"
  | resourceConflict job name =>
    s!"job '{job}': resource '{name}' already deployed with different content"
  | graphRejected job missing =>
    let names := ", ".intercalate missing
    s!"job '{job}': graph references undeployed resources: {names}"
  | executionAlreadyStarted job => s!"job '{job}': execution already started"
  | notRunning job => s!"job '{job}' is not running"
  | state cause => s!"registry store error: {cause.message}"
  | transport message => s!"transport error: {message}"
  | remote status message => s!"cluster returned {status}: {message}"
  | codec message => s!"codec error: {message}"
  | runtime message => s!"no tokio runtime to run executions on: {message}"

/-- **The HTTP status of a failure.** -/
def status : ClusterError → Nat
  | jobNotFound _ => 404
  | jobAlreadyExists _ | invalidStatus .. | resourceConflict .. | executionAlreadyStarted _
  | notRunning _ => 409
  | graphRejected .. => 422
  | codec _ | invalidJobName _ => 400
  | state _ | transport _ | remote .. | runtime _ => 500

end ClusterError

end ControlPlane
