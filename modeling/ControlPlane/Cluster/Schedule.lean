import ControlPlane.Cluster.Operation

/-!
# Tasks and those who wait for them

Between the operations on a cluster its tasks take their steps, in any order.  This module says
what one step is, and runs all tasks as far as they go.

* `Cluster.resolveTask`, `Cluster.publishTask` — the two steps at the end of a task.
* `Cluster.writeSink` — a write to the counters from outside.
* `Cluster.settle` — every task carried on as far as it goes.
* `Waiter` — somebody who waits for the outcome of a job.
-/

namespace ControlPlane

namespace Cluster

/-! ## Steps of a task -/

/-- Whether the execution of a task has been asked to stop.  Only its own slot counts. -/
def isInterrupted (c : Cluster) (t : RunTask) : Bool :=
  match c.slots.find? t.job with
  | some slot => slot.execution = t.execution && slot.interrupted
  | none => false

/-- The cluster with the counters of a task's execution written. -/
def putCounters (c : Cluster) (t : RunTask) (a : Accumulators) : Cluster :=
  match c.slots.find? t.job with
  | some slot =>
    if slot.execution = t.execution then
      { c with slots := c.slots.insert t.job { slot with accumulators := a } }
    else c
  | none => c

/-- The counters of a task's execution. -/
def countersOf (c : Cluster) (t : RunTask) : Accumulators :=
  match c.slots.find? t.job with
  | some slot => if slot.execution = t.execution then slot.accumulators else .empty
  | none => .empty

/-- The cluster with a task in place of the one of the same execution. -/
def replaceTask (c : Cluster) (t : RunTask) : Cluster :=
  { c with tasks := c.tasks.map fun u => if u.execution = t.execution then t else u }

/-- **A task at work is carried on.**  An interrupt is looked at before the work, and so the work
does not go on after one; otherwise the work goes on as far as it can, and when it is finished the
task resolves with its result. -/
def resolveTask (c : Cluster) (t : RunTask) : Cluster :=
  match t.phase with
  | .resolved _ => c
  | .working work =>
    if c.isInterrupted t then c.replaceTask { t with phase := .resolved none }
    else
      let (work, counters) := work.advance t.gateOpen (c.countersOf t)
      let c := c.putCounters t counters
      match work.result? with
      | some result => c.replaceTask { t with phase := .resolved (some result) }
      | none => c.replaceTask { t with phase := .working work }

/-- **A resolved task publishes** its outcome and is gone. -/
def publishTask (c : Cluster) (t : RunTask) (now : Nat) : Cluster :=
  match t.phase with
  | .working _ => c
  | .resolved result =>
    let ((), c) := (Operation.publish t.job result now).run c
    { c with tasks := c.tasks.filter fun u => u.execution != t.execution }

/-- **A write to the sink of an execution** by whoever has kept it.  The sink outlives the work, and also
the slot; without its slot nobody sees its counters. -/
def writeSink (c : Cluster) (execution : Nat) (w : SinkWrite) : Cluster :=
  { c with slots := c.slots.map fun slot =>
      if slot.execution = execution then { slot with accumulators := w.apply slot.accumulators }
      else slot }

/-- The task of an execution, if it is still there. -/
def findTask (c : Cluster) (execution : Nat) : Option RunTask :=
  c.tasks.find? fun t => t.execution = execution

/-- One execution carried on as far as it goes. -/
def settleTask (c : Cluster) (now : Nat) (execution : Nat) : Cluster :=
  match c.findTask execution with
  | none => c
  | some t =>
    let c := c.resolveTask t
    match c.findTask execution with
    | none => c
    | some t => c.publishTask t now

/-- **All executions carried on** as far as they go, in the order in which they were started. -/
def settle (c : Cluster) (now : Nat) : Cluster :=
  (c.tasks.map (·.execution)).foldl (fun c execution => c.settleTask now execution) c

end Cluster

/-! ## Waiting -/

/-- Somebody who has begun to wait for the outcome of a job. -/
inductive Waiter where
  /-- The outcome will appear under the number of the execution. -/
  | waiting (job : String) (execution : Nat)
  /-- The answer was there at once. -/
  | answered (answer : Except ClusterError Job.Outcome)

namespace Waiter

/-- Begins to wait. -/
def start (c : Cluster) (job : String) : Waiter :=
  match ((Operation.beginAwait job).run.run c).1 with
  | .ok (.inl execution) => .waiting job execution
  | .ok (.inr outcome) => .answered (.ok outcome)
  | .error e => .answered (.error e)

/-- Whether the slot of an execution is still there. -/
def isKept (c : Cluster) (job : String) (execution : Nat) : Bool :=
  match c.slots.find? job with
  | some slot => slot.execution = execution
  | none => false

/-- **The answer to somebody who waits**, if there is one now.  A published outcome stays for those
who have begun to wait, also when the job is destroyed; when it is destroyed before there is an
outcome, there will be none. -/
def poll (c : Cluster) : Waiter → Option (Except ClusterError Job.Outcome)
  | answered answer => some answer
  | waiting job execution =>
    match c.published.lookup execution with
    | some outcome => some (.ok outcome)
    | none => if isKept c job execution then none else some (.error (.jobNotFound job))

end Waiter

end ControlPlane
