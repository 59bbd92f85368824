import ControlPlane.Client.Control

/-!
# Job handles

What a client holds of a job: its bundle, the control of its state, and the watch over its
execution.  Here the operations of a handle are carried out one after the other on a link to a
cluster.

* `Site` — the link with the cluster behind it.
* `Handle` — the operations `init`, `submit`, `execute`, `interrupt`, `destroy`, `accumulators`.
* `Watch` — what becomes of an execution, for those who want to know.
-/

namespace ControlPlane

open Job (State Event)

/-- A cluster and the link to it, at some time. -/
structure Site where
  link : FaultyLink
  cluster : Cluster
  now : Nat

namespace Site

/-- A call at a site. -/
def issue (s : Site) (job : String) (call : Call) : Ongoing × Site :=
  let (o, link, cluster) := s.link.issue s.cluster s.now job call
  (o, { s with link := link, cluster := cluster })

/-- The answer to a call that is answered at once.  Only the wait for an outcome is not, and no
other call waits unless its job has a name that is none. -/
def ask (s : Site) (job : String) (call : Call) : Answer × Site :=
  let (o, s) := s.issue job call
  ((o.poll s.cluster).getD (.error (.transport "no answer")), s)

end Site

/-- The watch over an execution. -/
inductive Watch where
  | waiting (o : Ongoing)
  | ended (result : Except JobError Job.Outcome)

/-- What a client holds of a job. -/
structure Handle where
  control : Control
  bundle : Bundle
  watch : Option Watch

namespace Handle

/-- A handle without a look at the name. -/
def ofName (job : String) : Handle := ⟨.new job, .empty, none⟩

/-- **A new handle**, if the name is one. -/
def new (job : String) : Except JobError Handle :=
  if Job.isName job then .ok (ofName job) else .error (.invalidName job)

def job (h : Handle) : String := h.control.job

def state (h : Handle) : State := h.control.state

/-! ## One operation -/

/-- The watch of an execution that is given up with its pool. -/
def giveUp (h : Handle) : Handle :=
  match h.watch with
  | some (.waiting _) =>
    let e := JobError.control h.job .awaitCompletion (.text Intent.cancelled)
    { h with watch := some (.ended (.error e)) }
  | _ => h

/-- The outcome of the execution, as soon as there is one. -/
def observe (h : Handle) (cluster : Cluster) : Handle :=
  match h.watch with
  | some (.waiting o) =>
    match o.poll cluster with
    | some (.ok (.outcome outcome)) =>
      { h with control := h.control.deliver outcome, watch := some (.ended (.ok outcome)) }
    | some (.ok _) => h
    | some (.error e) =>
      let e := JobError.control h.job .awaitCompletion (.cluster e)
      { h with watch := some (.ended (.error e)) }
    | none => h
  | _ => h

/-- **One operation from its first to its last step**, with nobody in between. -/
def perform (h : Handle) (s : Site) (i : Intent) : Except JobError State × Handle × Site :=
  match h.control.enter i with
  | .finished result => (result, h, s)
  | _ =>
    match h.control.acquire i with
    | (.calling, control) =>
      let (answer, s) := s.ask h.job i.call
      let (result, control) := control.answer i (answer.map fun _ => ())
      let h := { h with control := control }
      (result, if control.poolUp then h else h.giveUp, s)
    | (.finished result, control) => (result, { h with control := control }, s)
    | (.queued, _) => (.error (i.poolFailure h.job), h, s)

/-! ## The operations -/

/-- Registers the job. -/
def init (h : Handle) (s : Site) (config : JobConfig) : Except JobError State × Handle × Site :=
  h.perform s (.init config)

/-- Ships resources; the bundle is not looked at. -/
def deploy (h : Handle) (s : Site) (resources : List Resource) :
    Except JobError State × Handle × Site :=
  h.perform s (.deploy resources)

/-- Sends the graph alone. -/
def submitGraph (h : Handle) (s : Site) (graph : Graph) : Except JobError State × Handle × Site :=
  h.perform s (.submit graph)

/-- The handle with its bundle open again, unless the job has been deployed after all. -/
def reopen (h : Handle) : Handle :=
  if h.state = .initialized then { h with bundle := h.bundle.thaw } else h

/-- **Deploys the bundle and sends the graph.**  The bundle is frozen for the deployment, and open
again when the deployment is refused; a job that has been deployed is not deployed again. -/
def submit (h : Handle) (s : Site) (graph : Graph) : Except JobError State × Handle × Site :=
  if h.state = .deployed then h.submitGraph s graph
  else match h.control.check .deploy with
    | .error e => (.error e, h, s)
    | .ok _ =>
      let h := { h with bundle := h.bundle.freeze }
      match h.deploy s h.bundle.toList with
      | (.error e, h, s) => (.error e, h.reopen, s)
      | (.ok _, h, s) => h.submitGraph s graph

/-- **Starts the execution** and the watch over it. -/
def execute (h : Handle) (s : Site) : Except JobError State × Handle × Site :=
  match h.perform s .execute with
  | (.error e, h, s) => (.error e, h, s)
  | (.ok next, h, s) =>
    let (o, s) := s.issue h.job .await
    (.ok next, { h with watch := some (.waiting o) }.observe s.cluster, s)

/-- Asks the execution to stop. -/
def interrupt (h : Handle) (s : Site) : Except JobError State × Handle × Site :=
  h.perform s .interrupt

/-- **Destroys the job.**  The bundle is emptied first, also when the cluster refuses. -/
def destroy (h : Handle) (s : Site) : Except JobError State × Handle × Site :=
  { h with bundle := h.bundle.freeze.clear }.perform s .destroy

/-- Destroys the job without a look at the bundle. -/
def destroyJob (h : Handle) (s : Site) : Except JobError State × Handle × Site :=
  h.perform s .destroy

/-- **The counters of the execution**, once it has started; the state does not change. -/
def accumulators (h : Handle) (s : Site) : Except JobError Accumulators × Site :=
  if h.state.hasStarted then
    if h.control.poolUp then
      match s.ask h.job .accumulators with
      | (.ok (.counters a), s) => (.ok a, s)
      | (.ok _, s) => (.ok .empty, s)
      | (.error e, s) => (.error (.control h.job .fetchAccumulators (.cluster e)), s)
    else (.error (.workerPool h.job Intent.cancelled), s)
  else (.error (.notPermitted h.job h.state .fetchAccumulators), s)

/-! ## The bundle -/

/-- An addition to the bundle. -/
def addTo (h : Handle) (add : Bundle → Except BundleError (α × Bundle)) :
    Except JobError α × Handle :=
  match add h.bundle with
  | .ok (a, bundle) => (.ok a, { h with bundle := bundle })
  | .error e => (.error (.ofBundle h.job e), h)

/-! ## The end of a handle -/

/-- A handle that is dropped: its pool goes, and nothing else. -/
def drop (h : Handle) : Handle :=
  { h with control := { h.control with poolUp := false } }.giveUp

/-- The description of a handle. -/
def describe (h : Handle) (transport : Transport) : String :=
  let name := h.job
  let state := h.state.title
  "JobHandle \x7b name: \"" ++ name ++ "\", state: " ++ state ++ ", transport: "
    ++ transport.title ++ ", .. \x7d"

end Handle

end ControlPlane
