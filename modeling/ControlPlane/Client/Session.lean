import ControlPlane.Client.Handle

/-!
# Sessions

A session is one client that holds several handles on one site, each under a label.  Executions go
on when the session carries them on, and then all handles see which of them have ended.

* `Seat` — a handle in a session.
* `Session.settle`, `Session.release` — executions carried on.
* `Session.init`, …, `Session.drop` — the operations of a handle in its session.
-/

namespace ControlPlane

/-- A handle in a session. -/
structure Seat where
  handle : Handle
  /-- Whether there is only the control of the job, without a bundle. -/
  bare : Bool
  /-- Whether an execution has been started whose outcome nobody has collected. -/
  pending : Bool
  /-- Whether the handle has been dropped. -/
  dropped : Bool

/-- A client with its handles, the latest one first. -/
structure Session where
  site : Site
  seats : List (String × Seat)
  config : ClientConfig
  files : FileTree
  loader : CodeLoader

namespace Session

/-- How the session reaches its cluster. -/
def transport (s : Session) : Transport := s.site.link.link.transport

/-- The handle under a label. -/
def find? (s : Session) (label : String) : Option Seat := s.seats.lookup label

/-- The session with a handle under a label. -/
def put (s : Session) (label : String) (seat : Seat) : Session :=
  { s with seats := (label, seat) :: s.seats.filter fun e => e.1 ≠ label }

/-- The states of the handles that have not been dropped. -/
def states (s : Session) : Table Job.State :=
  (Table.ofList (s.seats.filter fun e => !e.2.dropped)).map fun seat => seat.handle.state

/-! ## Executions carried on -/

/-- **The session on a cluster that has gone on**: all handles see what has ended. -/
def onCluster (s : Session) (c : Cluster) : Session :=
  { s with
    site := { s.site with cluster := c }
    seats := s.seats.map fun (label, seat) =>
      (label, { seat with handle := seat.handle.observe c }) }

/-- All executions carried on. -/
def settle (s : Session) : Session := s.onCluster (s.site.cluster.settle s.site.now)

/-- **Opens the gate** of the latest execution of a job, and carries all executions on; answers
whether the job has one. -/
def release (s : Session) (job : String) : Bool × Session :=
  let (opened, c) := s.site.cluster.openGate job
  (opened, (s.onCluster c).settle)

/-! ## Operations of a handle -/

/-- The session after an operation of a handle. -/
def after (s : Session) (label : String) (seat : Seat) (r : Except JobError α × Handle × Site) :
    Except JobError α × Session :=
  (r.1, { s with site := r.2.2 }.put label { seat with handle := r.2.1 })

/-- The same for an operation that stops executions: when it has been acknowledged, the end of the
execution is waited for. -/
def afterStop (s : Session) (label : String) (seat : Seat)
    (r : Except JobError α × Handle × Site) : Except JobError α × Session :=
  let (answer, s) := s.after label seat r
  (answer, if answer.isOk then s.settle else s)

/-- Registers the job with the given settings, or with those that the session has for it. -/
def init (s : Session) (label : String) (seat : Seat) (given : Option JobConfig) :
    Except JobError Job.State × Session :=
  let config :=
    if seat.bare then given.getD .standard else s.config.choose seat.handle.job given
  s.after label seat (seat.handle.init s.site config)

def deploy (s : Session) (label : String) (seat : Seat) (resources : List Resource) :
    Except JobError Job.State × Session :=
  s.after label seat (seat.handle.deploy s.site resources)

def submit (s : Session) (label : String) (seat : Seat) (graph : Graph) :
    Except JobError Job.State × Session :=
  s.after label seat
    (if seat.bare then seat.handle.submitGraph s.site graph else seat.handle.submit s.site graph)

def execute (s : Session) (label : String) (seat : Seat) : Except JobError Job.State × Session :=
  let r := seat.handle.execute s.site
  s.after label { seat with pending := seat.pending || r.1.isOk } r

def interrupt (s : Session) (label : String) (seat : Seat) : Except JobError Job.State × Session :=
  s.afterStop label seat (seat.handle.interrupt s.site)

def destroy (s : Session) (label : String) (seat : Seat) : Except JobError Job.State × Session :=
  s.afterStop label seat
    (if seat.bare then seat.handle.destroyJob s.site else seat.handle.destroy s.site)

def accumulators (s : Session) (seat : Seat) : Except JobError Accumulators × Session :=
  let (answer, site) := seat.handle.accumulators s.site
  (answer, { s with site := site })

/-- An addition to the bundle. -/
def addTo (s : Session) (label : String) (seat : Seat)
    (add : Bundle → Except BundleError (α × Bundle)) : Except JobError α × Session :=
  let (answer, handle) := seat.handle.addTo add
  (answer, s.put label { seat with handle := handle })

/-- Several interrupts of one handle, one after the other. -/
def interrupts (h : Handle) (site : Site) : Nat → List (Except JobError Job.State) × Handle × Site
  | 0 => ([], h, site)
  | n + 1 =>
    let (r, h, site) := h.interrupt site
    let (rs, h, site) := interrupts h site n
    (r :: rs, h, site)

/-- **Several interrupts at once.**  They take the lock of the handle in turn. -/
def interruptMany (s : Session) (label : String) (seat : Seat) (n : Nat) :
    List (Except JobError Job.State) × Session :=
  let (results, handle, site) := interrupts seat.handle s.site n
  let s := { s with site := site }.put label { seat with handle := handle }
  (results, if results.any (·.isOk) then s.settle else s)

/-- **The outcome of the execution**, for the one who collects it; none when there is nothing to
collect. -/
def collect (s : Session) (label : String) (seat : Seat) :
    Option (Except JobError Job.Outcome × Session) :=
  match seat.pending, seat.handle.watch with
  | true, some (.ended r) => some (r, s.put label { seat with pending := false })
  | _, _ => none

/-- Drops a handle. -/
def drop (s : Session) (label : String) (seat : Seat) : Session :=
  (s.put label { seat with handle := seat.handle.drop, dropped := true }).settle

end Session

end ControlPlane
