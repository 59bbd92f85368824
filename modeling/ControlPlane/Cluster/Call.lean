import ControlPlane.Cluster.Schedule

/-!
# Calls to a cluster

What a client asks of a cluster, as a value: a call can be carried out by a cluster in the same
process, or be sent to one behind an address.

* `Call`, `Reply` — the calls and what they answer.
* `Cluster.issue` — a call carried out in the same process.
-/

namespace ControlPlane

/-- What a client asks of a cluster, about a job. -/
inductive Call where
  | register (config : JobConfig)
  | deploy (resources : List Resource)
  | submit (graph : Graph)
  | start
  | await
  | interrupt
  | destroy
  | accumulators

/-- The kinds of calls, without what they carry. -/
inductive CallKind where
  | register
  | deploy
  | submit
  | start
  | await
  | interrupt
  | destroy
  | accumulators
  deriving DecidableEq, Repr

namespace CallKind

def all : List CallKind :=
  [.register, .deploy, .submit, .start, .await, .interrupt, .destroy, .accumulators]

def name : CallKind → String
  | .register => "register"
  | .deploy => "deploy"
  | .submit => "submit"
  | .start => "start"
  | .await => "await"
  | .interrupt => "interrupt"
  | .destroy => "destroy"
  | .accumulators => "accumulators"

end CallKind

def Call.kind : Call → CallKind
  | register _ => .register
  | deploy _ => .deploy
  | submit _ => .submit
  | start => .start
  | await => .await
  | interrupt => .interrupt
  | destroy => .destroy
  | accumulators => .accumulators

/-- What a call answers: that it has been done, an outcome, or counters. -/
inductive Reply where
  | done
  | outcome (o : Job.Outcome)
  | counters (a : Accumulators)

/-- The answer to a call. -/
abbrev Answer := Except ClusterError Reply

/-- The program of a call; that of waiting only says whether an outcome is stored. -/
def Call.operation (job : String) (now : Nat) : Call → Operation Reply
  | register config => do Operation.register job config now; return .done
  | deploy resources => do Operation.deploy job resources now; return .done
  | submit graph => do Operation.submit job graph now; return .done
  | start => do Operation.start job now; return .done
  | await => return .outcome (← Operation.storedOutcome job)
  | interrupt => do Operation.interrupt job; return .done
  | destroy => do Operation.destroy job; return .done
  | accumulators => return .counters (← Operation.accumulators job)

/-- What becomes of a call in the same process: an answer at once, or a wait. -/
inductive Issued where
  | answered (answer : Answer)
  | waiting (w : Waiter)

/-- **A call carried out** by a cluster in the same process. -/
def Cluster.issue (c : Cluster) (now : Nat) (job : String) (call : Call) : Issued × Cluster :=
  match call with
  | .await => (.waiting (Waiter.start c job), c)
  | _ =>
    let (answer, c) := (call.operation job now).run.run c
    (.answered answer, c)

/-- The answer to a call, once there is one. -/
def Issued.poll (c : Cluster) : Issued → Option Answer
  | answered answer => some answer
  | waiting w => (w.poll c).map fun answer => answer.map .outcome

end ControlPlane
