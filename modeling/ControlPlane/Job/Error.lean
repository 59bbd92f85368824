import ControlPlane.Bundle
import ControlPlane.Cluster.Error
import ControlPlane.Job.Machine
import ControlPlane.Job.Name
import ControlPlane.Job.Operation

/-!
# Failures of a job

What can go wrong while a job is prepared and driven, with the message of each failure.
-/

namespace ControlPlane

/-- What stands behind a failed operation: a failure of the cluster, or one that is only a text. -/
inductive Cause where
  | cluster (e : ClusterError)
  | text (message : String)
  deriving DecidableEq, Repr

def Cause.message : Cause → String
  | cluster e => e.message
  | text message => message

/-- Why an operation on a job failed. -/
inductive JobError where
  /-- The event is not in the table for the state. -/
  | illegalTransition (job : String) (state : Job.State) (event : Job.Event)
  /-- The operation is not for jobs in this state. -/
  | notPermitted (job : String) (state : Job.State) (operation : Job.Operation)
  | resource (e : ResourceError)
  | bundleFrozen (job : String)
  /-- The cluster refused an operation or could not be reached. -/
  | control (job : String) (operation : Job.Operation) (cause : Cause)
  | destroy (job : String) (cause : Cause)
  | invalidName (job : String)
  | workerPool (job : String) (message : String)
  deriving DecidableEq, Repr

namespace JobError

/-- The message of a failure. -/
def message : JobError → String
  | illegalTransition job state event =>
    s!"job '{job}': event {event.name} is not valid from state {state.label}"
  | notPermitted job state operation =>
    s!"job '{job}': {operation.label} is not permitted in state {state.label}"
  | resource e => s!"resource error: {e.message}"
  | bundleFrozen job => s!"job '{job}': resource bundle is frozen once deployment has started"
  | control job operation cause => s!"job '{job}': {operation.label} failed: {cause.message}"
  | destroy job cause => s!"job '{job}': cluster-side destroy failed: {cause.message}"
  | invalidName job => Job.invalidName job
  | workerPool job message => s!"job '{job}': worker pool unavailable: {message}"

/-- The message of what stands behind a failure, if anything does. -/
def cause? : JobError → Option String
  | resource e => some e.message
  | control _ _ cause => some cause.message
  | destroy _ cause => some cause.message
  | workerPool _ message => some message
  | _ => none

/-- Whether the failure is that the job was not in the right state. -/
def isIllegalState : JobError → Bool
  | illegalTransition .. | notPermitted .. => true
  | _ => false

/-- The failure of a transition of a job. -/
def ofIllegal (job : String) (e : Job.Illegal) : JobError := illegalTransition job e.state e.event

/-- The failure of adding to the bundle of a job. -/
def ofBundle (job : String) : BundleError → JobError
  | .frozen => bundleFrozen job
  | .resource e => resource e

end JobError

end ControlPlane
