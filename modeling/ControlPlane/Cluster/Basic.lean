import ControlPlane.Cluster.Error
import ControlPlane.Cluster.Execution
import ControlPlane.Job.Operation

/-!
# The cluster in one process

A cluster keeps its jobs in the registry store, which outlives it, and what it knows about their
executions in *run slots*, which do not.  An execution itself is a *task*, which runs beside the
operations on the cluster.  A task takes two steps at its end: it *resolves*, with what became of
the work or because of an interrupt, and later it *publishes* the outcome in the slot that it finds
under the name of its job.

* `RunSlot`, `RunTask`, `Cluster` — the state.
* `Cluster.launch`, `requestInterrupt`, `removeSlot`, `publish` — what happens to slots and tasks.
-/

namespace ControlPlane

/-- What the cluster knows about the execution of a job. -/
structure RunSlot where
  /-- The number of the execution; no two executions have one number. -/
  execution : Nat
  /-- Whether an interrupt has been acknowledged. -/
  interrupted : Bool
  /-- The outcome, once it has been published. -/
  outcome : Option Job.Outcome
  /-- The counters of the execution. -/
  accumulators : Accumulators

namespace RunSlot

def isFinished (s : RunSlot) : Bool := s.outcome.isSome

end RunSlot

/-- How far a task has come. -/
inductive TaskPhase where
  /-- It is at work. -/
  | working (work : Work)
  /-- It has resolved and will publish: what became of the work, or nothing after an interrupt. -/
  | resolved (result : Option WorkResult)

/-- An execution that runs. -/
structure RunTask where
  execution : Nat
  job : String
  /-- Whether the gate of the execution is open. -/
  gateOpen : Bool
  phase : TaskPhase

/-- A cluster with its store, its run slots by job, and its tasks. -/
structure Cluster where
  store : Store
  slots : Table RunSlot
  /-- The tasks, in the order in which they were started. -/
  tasks : List RunTask
  /-- The number of the next execution. -/
  nextExecution : Nat
  /-- The number of the latest execution of each job. -/
  latest : Table Nat
  /-- The outcomes that have been published, by execution; those who wait look here. -/
  published : List (Nat × Job.Outcome)
  executor : Executor

namespace Cluster

/-- A cluster over a store, with nothing running. -/
def ofStore (store : Store) (executor : Executor) : Cluster :=
  ⟨store, .empty, [], 0, .empty, [], executor⟩

/-- **A restart**: another cluster over the same store.  The executions are gone. -/
def restart (c : Cluster) : Cluster :=
  { c with slots := .empty, tasks := [], latest := .empty, published := [] }

/-- The number of executions without an outcome. -/
def activeJobs (c : Cluster) : Nat := (c.slots.values.filter fun s => !s.isFinished).length

/-! ## Slots and tasks -/

/-- **Launches an execution**: calls the executor, starts a task and makes a slot. -/
def launch (c : Cluster) (context : ExecutionContext) : Cluster :=
  let launched := c.executor context
  let execution := c.nextExecution
  { c with
    slots := c.slots.insert context.job
      ⟨execution, false, none, Accumulators.write .empty launched.atOnce⟩
    tasks := c.tasks ++ [⟨execution, context.job, false, .working launched.work⟩]
    latest := c.latest.insert context.job execution
    nextExecution := execution + 1 }

/-- The slot under a name with `f` done to it. -/
def modifySlot (c : Cluster) (job : String) (f : RunSlot → RunSlot) : Cluster :=
  match c.slots.find? job with
  | some slot => { c with slots := c.slots.insert job (f slot) }
  | none => c

/-- Asks the execution in the slot of a job to stop. -/
def requestInterrupt (c : Cluster) (job : String) : Cluster :=
  c.modifySlot job fun slot => { slot with interrupted := true }

/-- Whether a task has not resolved yet. -/
def RunTask.isWorking (t : RunTask) : Bool :=
  match t.phase with
  | .working _ => true
  | .resolved _ => false

/-- **Removes the slot of a job** and aborts its task, which only stops one that is at work. -/
def removeSlot (c : Cluster) (job : String) : Cluster :=
  match c.slots.find? job with
  | some slot =>
    { c with
      slots := c.slots.erase job
      tasks := c.tasks.filter fun t => !(t.execution = slot.execution && RunTask.isWorking t) }
  | none => c

/-- Puts an outcome into the slot of a job, where those who wait see it. -/
def setOutcome (c : Cluster) (job : String) (outcome : Job.Outcome) : Cluster :=
  match c.slots.find? job with
  | some slot =>
    { c with
      slots := c.slots.insert job { slot with outcome := some outcome }
      published := (slot.execution, outcome) :: c.published }
  | none => c

/-- **Opens the gate** of the latest execution of a job; answers whether it has one. -/
def openGate (c : Cluster) (job : String) : Bool × Cluster :=
  match c.latest.find? job with
  | some execution =>
    let opened := c.tasks.map fun t =>
      if t.execution = execution then { t with gateOpen := true } else t
    (true, { c with tasks := opened })
  | none => (false, c)

end Cluster

end ControlPlane
