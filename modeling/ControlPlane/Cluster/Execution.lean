import ControlPlane.Accumulator.Sink
import ControlPlane.Config
import ControlPlane.Graph
import ControlPlane.Resource.Basic

/-!
# Executions

What runs a graph is not part of the cluster.  An *executor* is given everything about a job and
answers with the writes that it makes to the job's counters at once, and with the work that is left.
Work goes on by itself until it has to wait for something outside, and it ends with success or with
the reason of its failure.  An executor may also keep the sink of the counters, or hand it on; what is
written in this way, at any time, does not belong to the work, and `Cluster.writeSink` is about it.

* `ExecutionContext`, `Work`, `Executor` — the two sides of an execution.
* `Work.advance` — work carried on as far as it goes.
* `Script` — executions that are written down beforehand.
-/

namespace ControlPlane

/-- Everything that an executor is told about a job. -/
structure ExecutionContext where
  job : String
  config : JobConfig
  graph : Graph
  resources : List Resource

/-- How the work of an execution ends: well, or with a reason. -/
abbrev WorkResult := Except String Unit

/-- What is left to do of an execution. -/
inductive Work where
  | finish (result : WorkResult)
  | write (w : SinkWrite) (rest : Work)
  /-- Waits until the gate of the execution is opened from outside. -/
  | wait (rest : Work)

instance : Inhabited Work := ⟨.finish (.ok ())⟩

namespace Work

/-- **Work carried on** as far as it goes, with the counters after its writes.  It stands still at
a gate that is closed, and where it is finished. -/
def advance (gateOpen : Bool) (a : Accumulators) : Work → Work × Accumulators
  | finish result => (finish result, a)
  | write w rest => advance gateOpen (w.apply a) rest
  | wait rest => if gateOpen then advance gateOpen a rest else (wait rest, a)

/-- The result of finished work. -/
def result? : Work → Option WorkResult
  | finish result => some result
  | _ => none

/-- Work after some writes. -/
def afterWrites (writes : List SinkWrite) (rest : Work) : Work :=
  writes.foldr write rest

end Work

/-- What an executor answers: the writes that it makes at once, and the work that is left. -/
structure Launch where
  atOnce : List SinkWrite
  work : Work

/-- What runs graphs. -/
abbrev Executor := ExecutionContext → Launch

/-! ## Scripted executions -/

/-- A count as a counter. -/
def countOf (n : Nat) : Accumulator := .long (Accumulator.clamp n)

/-- The counters that an execution sets which only acknowledges its graph. -/
def acknowledgment (c : ExecutionContext) : List SinkWrite :=
  [.set "resources.deployed" (countOf c.resources.length),
    .set "graph.bytes" (countOf c.graph.encodedSize)]

/-- **Acknowledges every graph** and is finished. -/
def acknowledge : Executor := fun c =>
  ⟨[], Work.afterWrites (acknowledgment c) (.finish (.ok ()))⟩

/-- The counters by which an execution shows what it was told. -/
def contextWrites (c : ExecutionContext) : List SinkWrite :=
  [.set "ctx.parallelism" (countOf c.config.parallelism),
    .set "ctx.chunk_size" (countOf c.config.chunkSize),
    .set "ctx.references" (countOf c.graph.references.size)]
    ++ c.resources.map fun r => .set ("ctx.resource." ++ r.name) (countOf r.size)

/-- An execution that is written down beforehand. -/
structure Script where
  /-- Whether it shows what it was told. -/
  showsContext : Bool
  /-- What it writes at once. -/
  first : List SinkWrite
  /-- Whether it waits at its gate. -/
  holds : Bool
  /-- What it writes afterwards. -/
  later : List SinkWrite
  /-- Whether it acknowledges the graph at the end. -/
  acknowledges : Bool
  /-- The reason with which it fails. -/
  failure : Option String

namespace Script

/-- The script of a job for which there is none. -/
def standard : Script := ⟨false, [], false, [], true, none⟩

/-- The execution of a script. -/
def launch (s : Script) (c : ExecutionContext) : Launch :=
  let ending := Work.finish (match s.failure with | some reason => .error reason | none => .ok ())
  let writes := s.later ++ if s.acknowledges then acknowledgment c else []
  let rest := Work.afterWrites writes ending
  ⟨(if s.showsContext then contextWrites c else []) ++ s.first,
    if s.holds then .wait rest else rest⟩

/-- **The executor of scripts** for some jobs by name. -/
def executor (scripts : Table Script) : Executor := fun c =>
  ((scripts.find? c.job).getD standard).launch c

/-- The executor of the same scripts with every execution held at its gate. -/
def gatedExecutor (scripts : Table Script) : Executor := fun c =>
  { (scripts.find? c.job).getD standard with holds := true }.launch c

end Script

end ControlPlane
