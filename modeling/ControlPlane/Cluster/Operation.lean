import ControlPlane.Cluster.Basic

/-!
# Operations on a cluster

An operation is a program of *actions*, each of which is one atomic step: a transaction of the
store, or an access to the run slots.  Written as programs, operations can be carried out in one
go, cut off between two actions, or interleaved with others.

* `Action`, `Action.perform` — the steps.
* `Program`, `Program.run` — programs of steps, and running one without interruption.
* `Operation.register`, …, `Operation.accumulators` — the operations.
* `Operation.publish` — what a task does at its end.
-/

namespace ControlPlane

/-! ## Actions -/

/-- One atomic step of an operation. -/
inductive Action where
  | getJob (job : String)
  | putJob (r : Record)
  | listJobs
  | getResource (job name : String)
  | putResources (job : String) (rs : List Resource)
  | listResources (job : String)
  | getGraph (job : String)
  | putGraph (job : String) (g : Graph)
  | getAccumulators (job : String)
  | putAccumulators (job : String) (a : Accumulators)
  | purge (job : String)
  | findSlot (job : String)
  | launch (context : ExecutionContext)
  | requestInterrupt (job : String)
  | removeSlot (job : String)
  | setOutcome (job : String) (outcome : Job.Outcome)

namespace Action

/-- What a step answers. -/
@[reducible] def Answer : Action → Type
  | getJob _ => Except StoreError (Option Record)
  | listJobs => Except StoreError (List Record)
  | getResource _ _ => Except StoreError (Option Resource)
  | listResources _ => Except StoreError (List Resource)
  | getGraph _ => Except StoreError (Option Graph)
  | getAccumulators _ => Except StoreError (Option Accumulators)
  | purge _ => Bool
  | findSlot _ => Option RunSlot
  | _ => Unit

/-- **A step carried out.** -/
def perform (c : Cluster) : (a : Action) → a.Answer × Cluster
  | getJob job => (c.store.getJob job, c)
  | putJob r => ((), { c with store := c.store.putJob r })
  | listJobs => (c.store.listJobs, c)
  | getResource job name => (c.store.getResource job name, c)
  | putResources job rs => ((), { c with store := c.store.putResources job rs })
  | listResources job => (c.store.listResources job, c)
  | getGraph job => (c.store.getGraph job, c)
  | putGraph job g => ((), { c with store := c.store.putGraph job g })
  | getAccumulators job => (c.store.getAccumulators job, c)
  | putAccumulators job a => ((), { c with store := c.store.putAccumulators job a })
  | purge job =>
    let (existed, store) := c.store.purge job
    (existed, { c with store := store })
  | findSlot job => (c.slots.find? job, c)
  | launch context => ((), c.launch context)
  | requestInterrupt job => ((), c.requestInterrupt job)
  | removeSlot job => ((), c.removeSlot job)
  | setOutcome job outcome => ((), c.setOutcome job outcome)

end Action

/-! ## Programs -/

/-- A program of actions. -/
inductive Program (α : Type) where
  | done (a : α)
  | act (action : Action) (next : action.Answer → Program α)

namespace Program

/-- One program after another. -/
def andThen : Program α → (α → Program β) → Program β
  | done a, f => f a
  | act action next, f => act action fun answer => (next answer).andThen f

instance : Monad Program where
  pure := done
  bind := andThen

/-- **A program carried out in one go.** -/
def run (c : Cluster) : Program α → α × Cluster
  | done a => (a, c)
  | act action next =>
    let (answer, c) := action.perform c
    (next answer).run c

/-- The program of one action. -/
def ofAction (action : Action) : Program action.Answer := act action done

@[simp] theorem run_done (c : Cluster) (a : α) : (done a).run c = (a, c) := rfl

@[simp] theorem run_act (c : Cluster) (action : Action) (next : action.Answer → Program α) :
    (act action next).run c = (next (action.perform c).1).run (action.perform c).2 := rfl

@[simp] theorem run_andThen (c : Cluster) (p : Program α) (f : α → Program β) :
    (p.andThen f).run c = (f (p.run c).1).run (p.run c).2 := by
  induction p generalizing c with
  | done a => rfl
  | act action next ih => simp [andThen, ih]

end Program

/-! ## Operations -/

/-- A program that may fail. -/
abbrev Operation (α : Type) := ExceptT ClusterError Program α

namespace Operation

/-- A step that cannot fail. -/
def perform (action : Action) : Operation action.Answer :=
  ExceptT.lift (Program.ofAction action)

/-- A program whose answer comes from the store. -/
def ofStore (p : Program (Except StoreError α)) : Operation α :=
  ExceptT.mk (Program.andThen p fun answer => .done (answer.mapError .state))

def getJob (job : String) : Operation (Option Record) :=
  ofStore (Program.ofAction (.getJob job))

def getResource (job name : String) : Operation (Option Resource) :=
  ofStore (Program.ofAction (.getResource job name))

def listResources (job : String) : Operation (List Resource) :=
  ofStore (Program.ofAction (.listResources job))

def getGraph (job : String) : Operation (Option Graph) :=
  ofStore (Program.ofAction (.getGraph job))

def getAccumulators (job : String) : Operation (Option Accumulators) :=
  ofStore (Program.ofAction (.getAccumulators job))

/-! ### Checks -/

/-- Names are keys of the store and must not hold what separates keys. -/
def checkName (job : String) : Operation Unit :=
  if Job.isName job then return () else throw (.invalidJobName job)

/-- The record of a job that has to be there. -/
def requireJob (job : String) : Operation Record := do
  checkName job
  match ← getJob job with
  | some r => return r
  | none => throw (.jobNotFound job)

/-- The failure of an operation for which a job has not the right status. -/
def wrongStatus (r : Record) (operation expected : String) : ClusterError :=
  .invalidStatus r.name r.status operation expected

/-! ### The way to an execution -/

/-- **Registers a job.**  As long as nothing has been deployed, its settings can be replaced. -/
def register (job : String) (config : JobConfig) (now : Nat) : Operation Unit := do
  checkName job
  match ← getJob job with
  | some existing =>
    if existing.status = .registered then
      perform (.putJob { existing with config := config, updatedAt := now })
    else throw (.jobAlreadyExists job)
  | none => perform (.putJob (Record.new job config now))

/-- Checks that no resource takes the name of a stored one with different content. -/
def checkResources (job : String) : List Resource → Operation Unit
  | [] => return ()
  | r :: rest => do
    match ← getResource job r.name with
    | some existing =>
      if existing.sameContent r then checkResources job rest
      else throw (.resourceConflict job r.name)
    | none => checkResources job rest

/-- **Deploys resources.**  All are checked before any is stored. -/
def deploy (job : String) (resources : List Resource) (now : Nat) : Operation Unit := do
  let r ← requireJob job
  if r.status = .registered || r.status = .deployed then
    checkResources job resources
    perform (.putResources job resources)
    perform (.putJob (r.advance .deployed now))
  else throw (wrongStatus r "deploy" "registered or deployed")

/-- The references of a graph that are not among the names of resources. -/
def missingReferences (g : Graph) (resources : List Resource) : List String :=
  g.references.names.filter fun name => !resources.any fun r => r.name = name

/-- **Submits a graph**, all references of which have been deployed. -/
def submit (job : String) (graph : Graph) (now : Nat) : Operation Unit := do
  let r ← requireJob job
  if r.status = .deployed then
    let missing := missingReferences graph (← listResources job)
    if missing.isEmpty then
      perform (.putGraph job graph)
      perform (.putJob (r.advance .submitted now))
    else throw (.graphRejected job missing)
  else throw (wrongStatus r "submit" "deployed")

/-- **Starts the execution** of the graph; a second start is refused. -/
def start (job : String) (now : Nat) : Operation Unit := do
  let r ← requireJob job
  if r.executionStarted then throw (.executionAlreadyStarted job)
  if r.status = .submitted then
    match ← getGraph job with
    | some graph =>
      let resources ← listResources job
      perform (.putJob ({ r with executionStarted := true }.advance .running now))
      perform (.launch ⟨job, r.config, graph, resources⟩)
    | none => throw (wrongStatus r "start" "a submitted graph")
  else throw (wrongStatus r "start" "submitted")

/-! ### While it runs -/

/-- The outcome that a record tells. -/
def storedOutcome (job : String) : Operation Job.Outcome := do
  let r ← requireJob job
  match r.status with
  | .completed => return .completed
  | .interrupted => return .interrupted
  | .failed => return .failed (r.failure.getD "")
  | _ => throw (.notRunning job)

/-- **Begins to wait** for the outcome of a job: either its execution is known, and the outcome
will appear under its number, or the record tells the outcome at once. -/
def beginAwait (job : String) : Operation (Nat ⊕ Job.Outcome) := do
  match ← perform (.findSlot job) with
  | some slot => return .inl slot.execution
  | none => return .inr (← storedOutcome job)

/-- **Requests an interrupt** of an execution that has no outcome yet. -/
def interrupt (job : String) : Operation Unit := do
  match ← perform (.findSlot job) with
  | none => let _ ← requireJob job; throw (.notRunning job)
  | some slot =>
    if slot.isFinished then throw (.notRunning job)
    else perform (.requestInterrupt job)

/-- **Destroys a job**, whether there is one or not: first the slot goes, then what is stored. -/
def destroy (job : String) : Operation Unit := do
  checkName job
  perform (.removeSlot job)
  let _ ← perform (.purge job)

/-- **The counters of a job**: those of its execution, or else the ones that are stored. -/
def accumulators (job : String) : Operation Accumulators := do
  match ← perform (.findSlot job) with
  | some slot => return slot.accumulators
  | none =>
    match ← getAccumulators job with
    | some a => return a
    | none => let _ ← requireJob job; return .empty

/-- All records. -/
def listJobs : Operation (List Record) := ofStore (Program.ofAction .listJobs)

/-! ### At the end of an execution -/

/-- The outcome of a resolved task.  An interrupt that has been acknowledged counts before all
else. -/
def outcomeOf (interrupted : Bool) (result : Option WorkResult) : Job.Outcome :=
  if interrupted then .interrupted
  else match result with
    | some (.ok ()) => .completed
    | some (.error reason) => .failed reason
    | none => .interrupted

/-- The status for an outcome. -/
def statusOf : Job.Outcome → JobStatus
  | .completed => .completed
  | .failed _ => .failed
  | .interrupted => .interrupted

/-- The reason that an outcome gives. -/
def reasonOf : Job.Outcome → Option String
  | .failed reason => some reason
  | _ => none

/-- Stores an outcome and the last values of the counters. -/
def persist (job : String) (outcome : Job.Outcome) (a : Accumulators) (now : Nat) :
    Operation Unit := do
  match ← getJob job with
  | some r =>
    perform (.putJob ({ r with failure := reasonOf outcome }.advance (statusOf outcome) now))
  | none => pure ()
  perform (.putAccumulators job a)

/-- **Publishes the outcome of a task** in the slot under the name of its job, if there is one.
The outcome appears also when it could not be stored. -/
def publish (job : String) (result : Option WorkResult) (now : Nat) : Program Unit := do
  match ← Program.ofAction (.findSlot job) with
  | none => return ()
  | some slot =>
    let outcome := outcomeOf slot.interrupted result
    let _ ← (persist job outcome slot.accumulators now).run
    Program.ofAction (.setOutcome job outcome)

end Operation

end ControlPlane
