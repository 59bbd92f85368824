import ControlPlane.Cluster.Schedule
import ControlPlane.Gateway.Envelope
import ControlPlane.Http.MediaType
import ControlPlane.Http.Message
import ControlPlane.Http.Target

/-!
# The gateway

The gateway offers the operations of a cluster over HTTP.  A request is looked at from the outside
in: its path, its method, the name in the path, and its body; the first of these that is wrong
decides the answer.  Then the operation is carried out, and its answer comes back in an envelope.

* `Route`, `Route.ofSegments?` — the paths.
* `Gateway.plan` — what a request asks for, or why it is refused.
* `Gateway.handle` — a request carried out on a cluster.
-/

namespace ControlPlane.Gateway

/-! ## Routes -/

/-- A path that the gateway knows; a job in it is still encoded. -/
inductive Route where
  | health
  | jobs
  | job (segment : List Char)
  | resources (segment : List Char)
  | graph (segment : List Char)
  | execution (segment : List Char)
  | interrupt (segment : List Char)
  | accumulators (segment : List Char)
  deriving DecidableEq, Repr

namespace Route

/-- The route of a part of a job. -/
def ofPart? (segment part : List Char) : Option Route :=
  if part = "resources".toList then some (resources segment)
  else if part = "graph".toList then some (graph segment)
  else if part = "execution".toList then some (execution segment)
  else if part = "interrupt".toList then some (interrupt segment)
  else if part = "accumulators".toList then some (accumulators segment)
  else none

/-- The route below the path of the jobs.  A name at the end of a path is not empty. -/
def belowJobs? : List (List Char) → Option Route
  | [] => some jobs
  | [segment] => if segment.isEmpty then none else some (job segment)
  | [segment, part] => ofPart? segment part
  | _ => none

/-- **The route of a path.** -/
def ofSegments? : List (List Char) → Option Route
  | [] => none
  | first :: rest =>
    if first = "healthz".toList && rest.isEmpty then some health
    else if (first :: rest.take 2) = ["api".toList, "v1".toList, "jobs".toList] then
      belowJobs? (rest.drop 2)
    else none

end Route

/-! ## What a request asks for -/

/-- A request that has been understood. -/
inductive Plan where
  | health
  | list
  | register (job : String) (config : JobConfig)
  | destroy (job : String)
  | deploy (job : String) (resources : List Resource)
  | submit (job : String) (graph : Graph)
  | start (job : String)
  | await (job : String)
  | interrupt (job : String)
  | accumulators (job : String)

/-- The status with which a request is refused before it reaches the cluster. -/
abbrev Refusal := Nat

def badRequest : Refusal := 400

def notFound : Refusal := 404

def methodNotAllowed : Refusal := 405

def payloadTooLarge : Refusal := 413

def unsupportedMediaType : Refusal := 415

def unprocessable : Refusal := 422

/-- The name of a job in a path. -/
def nameOf (segment : List Char) : Except Refusal String :=
  match Http.decodeSegment segment with
  | some name => .ok name
  | none => .error badRequest

/-- Whether a request declares its body to be JSON. -/
def declaresJson (r : Http.Request) : Bool :=
  match (r.header? "content-type").bind Http.MediaType.parse? with
  | some m => m.isJson
  | none => false

/-- The status for a body that cannot be decoded: its text is at fault, or only its shape. -/
def statusOfFault : Json.Fault → Refusal
  | .endOfText | .malformed => badRequest
  | .mismatched => unprocessable

/-- The bytes that a body has at most; resources travel in it as hexadecimal text. -/
def maxBodyBytes : Nat := 256 * 1024 * 1024

/-- The body of a request.  Its bytes are collected before any of them is looked at. -/
def bodyOf (d : Json.Decoder α) (r : Http.Request) : Except Refusal α :=
  if !declaresJson r then .error unsupportedMediaType
  else if maxBodyBytes < r.body.utf8ByteSize then .error payloadTooLarge
  else (Json.decode d r.body.toList).mapError statusOfFault

/-- Whether a method reads: a request for the head alone is one to read. -/
def isRead (method : String) : Bool := method = "GET" || method = "HEAD"

/-- What a request to a known path asks for. -/
def planOf (route : Route) (r : Http.Request) : Except Refusal Plan :=
  match route with
  | .health => if isRead r.method then .ok .health else .error methodNotAllowed
  | .jobs => if isRead r.method then .ok .list else .error methodNotAllowed
  | .job segment =>
    if r.method = "POST" then do
      let job ← nameOf segment
      return .register job (← bodyOf JobConfig.decoder r)
    else if r.method = "DELETE" then return .destroy (← nameOf segment)
    else .error methodNotAllowed
  | .resources segment =>
    if r.method = "PUT" then do
      let job ← nameOf segment
      return .deploy job (← bodyOf (.list Resource.decoder) r)
    else .error methodNotAllowed
  | .graph segment =>
    if r.method = "PUT" then do
      let job ← nameOf segment
      return .submit job (← bodyOf Graph.decoder r)
    else .error methodNotAllowed
  | .execution segment =>
    if r.method = "POST" then return .start (← nameOf segment)
    else if isRead r.method then return .await (← nameOf segment)
    else .error methodNotAllowed
  | .interrupt segment =>
    if r.method = "POST" then return .interrupt (← nameOf segment) else .error methodNotAllowed
  | .accumulators segment =>
    if isRead r.method then return .accumulators (← nameOf segment) else .error methodNotAllowed

/-- **What a request asks for**, or the status with which it is refused. -/
def plan (r : Http.Request) : Except Refusal Plan :=
  match (Http.segments r.target).bind Route.ofSegments? with
  | some route => planOf route r
  | none => .error notFound

/-! ## Answers -/

/-- The response that holds an envelope; a request for the head alone gets no body. -/
def respond (r : Http.Request) (status : Nat) (e : Json.Value) : Http.Response :=
  ⟨status, true, if r.method = "HEAD" then "" else e.text⟩

/-- The response that refuses a request; the text that the web server puts into it is left out. -/
def refuse (status : Refusal) : Http.Response := ⟨status, false, ""⟩

/-- The response to a failed operation. -/
def respondError (r : Http.Request) (e : ClusterError) : Http.Response :=
  respond r e.status ((Envelope.failure e.message).toJson fun (_ : Unit) => .null)

/-- The response to an operation that answers `data`. -/
def respondTo (r : Http.Request) (status : Nat) (data : α → Json.Value) :
    Except ClusterError α → Http.Response
  | .ok a => respond r status ((Envelope.ok a).toJson data)
  | .error e => respondError r e

/-- The response with an outcome. -/
def respondOutcome (r : Http.Request) (answer : Except ClusterError Job.Outcome) : Http.Response :=
  respondTo r 200 Job.Outcome.toJson answer

/-- A word as the data of an answer. -/
def word (w : String) : Unit → Json.Value := fun () => .string w

/-! ## Requests carried out -/

/-- What becomes of a request: a response at once, or later, when somebody who waits has an
answer. -/
inductive Exchange where
  | answered (response : Http.Response)
  | waiting (request : Http.Request) (w : Waiter)

/-- An operation carried out for a request. -/
def carryOut (c : Cluster) (r : Http.Request) (status : Nat) (data : α → Json.Value)
    (operation : Operation α) : Exchange × Cluster :=
  let (answer, c) := operation.run.run c
  (.answered (respondTo r status data answer), c)

/-- **A request carried out on a cluster.** -/
def handle (c : Cluster) (now : Nat) (r : Http.Request) : Exchange × Cluster :=
  match plan r with
  | .error status => (.answered (refuse status), c)
  | .ok .health => (.answered (respondTo r 200 (word "ok") (.ok ())), c)
  | .ok .list =>
    carryOut c r 200 (fun records => .array (records.map Record.toJson)) Operation.listJobs
  | .ok (.register job config) =>
    carryOut c r 201 (word "registered") (Operation.register job config now)
  | .ok (.destroy job) => carryOut c r 200 (word "destroyed") (Operation.destroy job)
  | .ok (.deploy job resources) =>
    carryOut c r 200 (fun () => .number (.int resources.length))
      (Operation.deploy job resources now)
  | .ok (.submit job graph) =>
    carryOut c r 200 (word "submitted") (Operation.submit job graph now)
  | .ok (.start job) => carryOut c r 202 (word "started") (Operation.start job now)
  | .ok (.await job) => (.waiting r (Waiter.start c job), c)
  | .ok (.interrupt job) => carryOut c r 200 (word "interrupting") (Operation.interrupt job)
  | .ok (.accumulators job) =>
    carryOut c r 200 Accumulators.toJson (Operation.accumulators job)

/-- The response to a request, once there is one. -/
def Exchange.poll (c : Cluster) : Exchange → Option Http.Response
  | answered response => some response
  | waiting r w => (w.poll c).map (respondOutcome r)

end ControlPlane.Gateway
