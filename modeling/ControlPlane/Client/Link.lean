import ControlPlane.Gateway.Remote

/-!
# Links

How a client reaches its cluster: in the same process, through a gateway, or not at all.  A link
may also be told to fail some of its calls before they reach the cluster.

* `Link`, `Link.issue` — the ways, and a call on them.
* `Faults` — the failures that a link has been told of.
-/

namespace ControlPlane

/-- Where a cluster runs, seen from a client. -/
inductive Transport where
  | inProcess
  | remote
  deriving DecidableEq, Repr

namespace Transport

def name : Transport → String
  | inProcess => "local"
  | remote => "remote"

/-- The name in the description of a handle. -/
def title : Transport → String
  | inProcess => "Local"
  | remote => "Remote"

def decoder : Json.Decoder Transport := .choice [("local", inProcess), ("remote", remote)]

end Transport

/-! ## Addresses -/

/-- Why no connection was made to an address. -/
inductive ConnectError where
  /-- There is no port in the address. -/
  | invalidAddress
  | invalidPort
  /-- There is no network. -/
  | unreachable
  /-- Nobody listens there. -/
  | refused
  deriving DecidableEq, Repr

def ConnectError.message : ConnectError → String
  | invalidAddress => "invalid socket address"
  | invalidPort => "invalid port value"
  | unreachable => "Network is unreachable (os error 101)"
  | refused => "Connection refused (os error 111)"

/-- The host and the port of an address. -/
def hostAndPort (address : String) : Except ConnectError (String × Nat) :=
  match splitLast ':' address.toList with
  | none => .error .invalidAddress
  | some (host, port) =>
    match Decimal.count? 0x10000 port with
    | some n => .ok (String.ofList host, n)
    | none => .error .invalidPort

/-- The failure of a call for which no connection was made. -/
def connectFailure (address : String) (e : ConnectError) : ClusterError :=
  .transport s!"connect {address}: {e.message}"

/-! ## Links -/

/-- How a client reaches its cluster. -/
inductive Link where
  | inProcess
  /-- Through the gateway at an address. -/
  | gateway (address : String)
  /-- An address at which no gateway can be reached. -/
  | broken (address : String) (cause : ConnectError)
  deriving DecidableEq, Repr

/-- What becomes of a call on a link. -/
inductive Ongoing where
  | answered (answer : Answer)
  | issued (i : Issued)
  | sent (s : Remote.Sent)

/-- The answer to a call, once there is one. -/
def Ongoing.poll (c : Cluster) : Ongoing → Option Answer
  | answered answer => some answer
  | issued i => i.poll c
  | sent s => s.poll c

namespace Link

def transport : Link → Transport
  | inProcess => .inProcess
  | gateway _ | broken _ _ => .remote

/-- The link to an address at which nothing answers, the network being as `cause` says. -/
def toNowhere (address : String) (cause : ConnectError) : Link :=
  match hostAndPort address with
  | .ok _ => broken address cause
  | .error e => broken address e

/-- The answer to a call for which no cluster has to be reached: the failure to connect. -/
def answer? (l : Link) : Option Answer :=
  match l with
  | broken address cause => some (.error (connectFailure address cause))
  | _ => none

/-- **A call on a link.** -/
def issue (l : Link) (c : Cluster) (now : Nat) (job : String) (call : Call) : Ongoing × Cluster :=
  match l with
  | inProcess =>
    let (i, c) := c.issue now job call
    (.issued i, c)
  | gateway address =>
    let (s, c) := Remote.exchange c now address job call
    (.sent s, c)
  | broken address cause => (.answered (.error (connectFailure address cause)), c)

end Link

/-! ## Faults -/

/-- For each kind of call the failures of its next uses, where there is one. -/
abbrev Faults := List (CallKind × List (Option ClusterError))

/-- The failure of the next use of a call, and the failures after it. -/
def Faults.next (f : Faults) (kind : CallKind) : Option ClusterError × Faults :=
  match f.lookup kind with
  | some (first :: rest) => (first, f.map fun e => if e.1 = kind then (kind, rest) else e)
  | _ => (none, f)

/-- A link with the failures that it has been told of. -/
structure FaultyLink where
  link : Link
  faults : Faults

/-- A call on such a link: it fails before it reaches the cluster, or goes through. -/
def FaultyLink.issue (l : FaultyLink) (c : Cluster) (now : Nat) (job : String) (call : Call) :
    Ongoing × FaultyLink × Cluster :=
  let (fault, faults) := l.faults.next call.kind
  match fault with
  | some e => (.answered (.error e), { l with faults := faults }, c)
  | none =>
    let (o, c) := l.link.issue c now job call
    (o, { l with faults := faults }, c)

end ControlPlane
