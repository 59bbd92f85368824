import ControlPlane.Client.Link
import ControlPlane.Job.Error

/-!
# Driving a job

A handle drives its job by operations, each of which stands for an event of the state machine.  An
operation checks that its event is legal, takes the lock of the handle, checks again, issues one
call to the cluster, and applies the event when the cluster has acknowledged the call.  In between
others may run; the steps from one wait to the next are functions here.

* `Intent` — the operations.
* `Control`, `Progress` — the handle, and an operation between two of its waits.
* `Control.enter`, `acquire`, `answer` — the steps; `deliver` is that of the outcome.
-/

namespace ControlPlane

open Job (State Event)

/-! ## Operations -/

/-- An operation that is to change the state of a job. -/
inductive Intent where
  | init (config : JobConfig)
  | deploy (resources : List Resource)
  | submit (graph : Graph)
  | execute
  | interrupt
  | destroy

namespace Intent

/-- The event that an operation stands for. -/
def event : Intent → Event
  | init _ => .init
  | deploy _ => .deploy
  | submit _ => .submit
  | execute => .execute
  | interrupt => .interrupt
  | destroy => .destroy

/-- The call that an operation issues. -/
def call : Intent → Call
  | init config => .register config
  | deploy resources => .deploy resources
  | submit graph => .submit graph
  | execute => .start
  | interrupt => .interrupt
  | destroy => .destroy

/-- The failure of an operation. -/
def failure (job : String) (cause : Cause) : Intent → JobError
  | init _ => .control job .init cause
  | deploy _ => .control job .deploy cause
  | submit _ => .control job .submitGraph cause
  | execute => .control job .execute cause
  | interrupt => .control job .interrupt cause
  | destroy => .destroy job cause

/-- The text about work that the pool no longer takes. -/
def cancelled : String := "task was cancelled"

/-- The failure of an operation for which the pool takes no work. -/
def poolFailure (job : String) : Intent → JobError
  | interrupt => .control job .interrupt (.text cancelled)
  | destroy => .destroy job (.text cancelled)
  | _ => .workerPool job cancelled

end Intent

/-! ## The handle -/

/-- What a handle knows of its job. -/
structure Control where
  job : String
  state : State
  /-- Whether an operation has the lock. -/
  locked : Bool
  /-- Whether the pool takes work. -/
  poolUp : Bool
  deriving DecidableEq, Repr

/-- An operation between two of its waits. -/
inductive Progress where
  /-- It waits for the lock. -/
  | queued
  /-- It has the lock and waits for the answer of the cluster. -/
  | calling
  | finished (result : Except JobError State)

namespace Control

/-- The handle of a new job. -/
def new (job : String) : Control := ⟨job, .unstarted, false, true⟩

/-- The state to which an event leads, or the failure that it is not legal. -/
def check (c : Control) (event : Event) : Except JobError State :=
  match c.state.next? event with
  | some next => .ok next
  | none => .error (.illegalTransition c.job c.state event)

/-- Whether an operation has nothing to do: what is destroyed need not be destroyed. -/
def isDone (c : Control) : Intent → Bool
  | .destroy => c.state = .destroyed
  | _ => false

/-- **The first step**: the check, and the handing over to the pool. -/
def enter (c : Control) (i : Intent) : Progress :=
  if c.isDone i then .finished (.ok .destroyed)
  else match c.check i.event with
    | .error e => .finished (.error e)
    | .ok _ => if c.poolUp then .queued else .finished (.error (i.poolFailure c.job))

/-- **The second step**: the lock, if it is free, and the check again.  A failed check gives the
lock back at once. -/
def acquire (c : Control) (i : Intent) : Progress × Control :=
  if c.locked then (.queued, c)
  else if c.isDone i then (.finished (.ok .destroyed), c)
  else match c.check i.event with
    | .error e => (.finished (.error e), c)
    | .ok _ => (.calling, { c with locked := true })

/-- The handle after the event of an acknowledged operation.  An interrupt also counts when the
outcome has come first. -/
def apply (c : Control) (i : Intent) : Except JobError State × Control :=
  match c.check i.event with
  | .ok next => (.ok next, { c with state := next })
  | .error e =>
    match i with
    | .interrupt => if c.state = .interrupted then (.ok .interrupted, c) else (.error e, c)
    | _ => (.error e, c)

/-- The handle after an operation that has ended well: with the job goes the pool. -/
def wrapUp (c : Control) : Intent → Control
  | .destroy => { c with poolUp := false }
  | _ => c

/-- **The third step**: the answer of the cluster.  A refused operation leaves the state alone. -/
def answer (c : Control) (i : Intent) (acknowledged : Except ClusterError Unit) :
    Except JobError State × Control :=
  match acknowledged with
  | .error e => (.error (i.failure c.job (.cluster e)), { c with locked := false })
  | .ok () =>
    let (result, c) := c.apply i
    let c := { c with locked := false }
    match result with
    | .ok next => (.ok next, c.wrapUp i)
    | .error e => (.error e, c)

/-! ## Outcomes -/

/-- The event that an outcome stands for. -/
def eventOf : Job.Outcome → Event
  | .completed => .complete
  | .failed _ => .fail
  | .interrupted => .interrupt

/-- **The outcome of the execution**, delivered while nobody has the lock.  If an interrupt or the
end of the job was acknowledged before, nothing changes. -/
def deliver (c : Control) (outcome : Job.Outcome) : Control :=
  match c.state.next? (eventOf outcome) with
  | some next => { c with state := next }
  | none => c

end Control

end ControlPlane
