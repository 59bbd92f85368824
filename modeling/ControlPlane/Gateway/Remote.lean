import ControlPlane.Cluster.Call
import ControlPlane.Gateway.Basic

/-!
# A cluster behind an address

A call to a cluster behind an address is a request to the gateway there, and its answer is read
from the response.  A response that is no success is the failure of the call, whatever its body
says; and so is a success that the body denies.

* `Remote.request` — the request for a call.
* `Remote.decode` — the answer that a response gives.
* `Remote.exchange` — both, with a gateway between them.
-/

namespace ControlPlane.Remote

open Gateway

/-! ## Requests -/

/-- The method and the path for a call. -/
def methodAndPath (job : String) : Call → String × String
  | .register _ => ("POST", jobPath job)
  | .deploy _ => ("PUT", jobSubpath job "resources")
  | .submit _ => ("PUT", jobSubpath job "graph")
  | .start => ("POST", jobSubpath job "execution")
  | .await => ("GET", jobSubpath job "execution")
  | .interrupt => ("POST", jobSubpath job "interrupt")
  | .destroy => ("DELETE", jobPath job)
  | .accumulators => ("GET", jobSubpath job "accumulators")

/-- The body for a call. -/
def body : Call → String
  | .register config => config.toJson.text
  | .deploy resources => (Json.Value.array (resources.map Resource.toJson)).text
  | .submit graph => graph.toJson.text
  | _ => ""

/-- What the client calls itself. -/
def userAgent : String := "gridjob-client/0.1"

/-- The header that tells the length of a body, where there is one. -/
def lengthHeader (body : String) : List (String × String) :=
  if body.isEmpty then []
  else [("content-length", String.ofList (Decimal.ofNat body.utf8ByteSize))]

/-- **The request for a call**, unless its path cannot be sent.  Only names of jobs that are not
checked can make such paths. -/
def request (address job : String) (call : Call) : Except ClusterError Http.Request :=
  let (method, path) := methodAndPath job call
  if Http.isTarget path.toList then
    .ok { method := method
          target := String.ofList (Http.withoutFragment path.toList)
          headers := lengthHeader (body call) ++ [("content-type", "application/json"),
            ("host", address), ("user-agent", userAgent)]
          body := body call }
  else .error (.transport "invalid uri character")

/-! ## Responses -/

/-- The failure of a call for which the response is no success. -/
def failureOf (status : Nat) (e : Envelope α) : ClusterError :=
  .remote status (e.error.getD ((Http.reasonPhrase? status).getD "unknown"))

/-- The envelope in the body of a response, if the response is a success in every way. -/
def envelopeOf (d : Json.Decoder α) (status : Nat) (text : String) :
    Except ClusterError (Envelope α) :=
  match Json.decode (Envelope.decoder d) text.toList with
  | .ok e => if Http.isSuccess status && e.success then .ok e else .error (failureOf status e)
  | .error _ =>
    if Http.isSuccess status then .error (.codec "the response cannot be decoded")
    else .error (.remote status text)

/-- The data of an envelope, which has to be there. -/
def dataOf (path : String) (e : Envelope α) : Except ClusterError α :=
  match e.data with
  | some a => .ok a
  | none => .error (.codec s!"{path}: response carried no data")

/-- **The answer that a response gives.** -/
def decode (job : String) (call : Call) (status : Nat) (text : String) : Answer := do
  let path := (methodAndPath job call).2
  match call with
  | .await =>
    return .outcome (← dataOf path (← envelopeOf Job.Outcome.decoder status text))
  | .accumulators =>
    return .counters (← dataOf path (← envelopeOf Accumulators.decoder status text))
  | _ =>
    let _ ← envelopeOf Json.Decoder.value status text
    return .done

/-- The statuses whose responses have no body. -/
def isBodiless (status : Nat) : Bool := status = 204 || status = 304

/-- The answer that a response gives, as it arrives. -/
def decodeResponse (job : String) (call : Call) (r : Http.Response) : Answer :=
  decode job call r.status (if isBodiless r.status then "" else r.body)

/-! ## Through a gateway -/

/-- What becomes of a call that is sent to a gateway: a failure before anything is sent, or an
exchange. -/
inductive Sent where
  | failed (e : ClusterError)
  | sent (job : String) (call : Call) (x : Exchange)

/-- **A call sent to the gateway of a cluster.** -/
def exchange (c : Cluster) (now : Nat) (address job : String) (call : Call) : Sent × Cluster :=
  match request address job call with
  | .error e => (.failed e, c)
  | .ok r =>
    let (x, c) := Gateway.handle c now r
    (.sent job call x, c)

/-- The answer to a call, once there is one. -/
def Sent.poll (c : Cluster) : Sent → Option Answer
  | failed e => some (.error e)
  | sent job call x => (x.poll c).map (decodeResponse job call)

end ControlPlane.Remote
