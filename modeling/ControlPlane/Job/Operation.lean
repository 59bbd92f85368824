import ControlPlane.Json.Decoder

/-!
# Operations and outcomes

An *operation* is what a handle asks of the cluster, and names it in a failure.  An *outcome* is
how an execution ended.  Both have a JSON text; that of an outcome is an object whose member
`outcome` names it, with the reason of a failure beside it.
-/

namespace ControlPlane.Job

/-! ## Operations -/

/-- What a handle asks of the cluster. -/
inductive Operation where
  | init
  | deploy
  | submitGraph
  | execute
  | awaitCompletion
  | interrupt
  | destroy
  | fetchAccumulators
  deriving DecidableEq, Repr, Inhabited

namespace Operation

def all : List Operation :=
  [.init, .deploy, .submitGraph, .execute, .awaitCompletion, .interrupt, .destroy,
    .fetchAccumulators]

/-- The name of an operation in messages. -/
def label : Operation → String
  | .init => "init"
  | .deploy => "deploy"
  | .submitGraph => "submit-graph"
  | .execute => "execute"
  | .awaitCompletion => "await-completion"
  | .interrupt => "interrupt"
  | .destroy => "destroy"
  | .fetchAccumulators => "fetch-accumulators"

/-- The name of an operation in JSON texts. -/
def name : Operation → String
  | .init => "init"
  | .deploy => "deploy"
  | .submitGraph => "submit_graph"
  | .execute => "execute"
  | .awaitCompletion => "await_completion"
  | .interrupt => "interrupt"
  | .destroy => "destroy"
  | .fetchAccumulators => "fetch_accumulators"

/-- Reads the name of an operation. -/
def decoder : Json.Decoder Operation := .choice (all.map fun o => (o.name, o))

end Operation

/-! ## Outcomes -/

/-- How an execution ended. -/
inductive Outcome where
  | completed
  | failed (reason : String)
  | interrupted
  deriving DecidableEq, Repr, Inhabited

namespace Outcome

def isSuccess : Outcome → Bool
  | .completed => true
  | _ => false

def toJson : Outcome → Json.Value
  | .completed => .object [("outcome", .string "completed")]
  | .failed reason => .object [("outcome", .string "failed"), ("reason", .string reason)]
  | .interrupted => .object [("outcome", .string "interrupted")]

/-! ### Reading an outcome

The tag may stand anywhere among the members.  All other members are read as JSON values before
the tag is looked at, and of them only the reason of a failure counts.
-/

/-- The three kinds of outcome. -/
inductive Kind where
  | completed
  | failed
  | interrupted
  deriving DecidableEq, Repr

/-- The kind that a tag names; a tag is a string. -/
def Kind.decode : Json.Tree → Except Json.Fault Kind
  | .string s => do
    Json.Decoder.named [("completed", .completed), ("failed", .failed),
      ("interrupted", .interrupted)] (← s)
  | t => .error t.mismatch

open Json in
/-- The tag among the members, and the other members in order. -/
def splitMembers (depth : Nat) (kind : Option Kind) (others : List (String × Tree)) :
    Members → Except Fault (Option Kind × List (String × Tree))
  | .done e => e.strict (kind, others)
  | .cons key item rest => do
    let k ← key
    if k = "outcome" then
      if kind.isSome then throw .mismatched
      let tag ← Kind.decode item
      splitMembers depth (some tag) others rest
    else
      let _ ← Decoder.value depth item
      splitMembers depth kind (others ++ [(k, item)]) rest

/-- The outcome of a kind, from the members that hold a reason. -/
def ofReasons : Kind → List Json.Tree → Except Json.Fault Outcome
  | .completed, _ => .ok .completed
  | .interrupted, _ => .ok .interrupted
  | .failed, [.string reason] => reason.map .failed
  | .failed, _ => .error .mismatched

open Json in
/-- Items read as JSON values. -/
def plainItems (depth : Nat) : Items → Except Fault (List Tree)
  | .done e => e.strict []
  | .cons item rest => do
    let _ ← Decoder.value depth item
    let others ← plainItems depth rest
    return item :: others

open Json in
/-- **Reads an outcome**, from an object or from an array that begins with the tag. -/
def decoder : Decoder Outcome
  | depth, .object members => do
    let inner ← enter depth
    let (kind, others) ← splitMembers inner none [] members
    match kind with
    | none => throw .mismatched
    | some kind => ofReasons kind ((others.filter fun m => m.1 = "reason").map (·.2))
  | depth, .array items => do
    let inner ← enter depth
    match items with
    | .done e => do e.strict (); throw .mismatched
    | .cons tag rest =>
      let kind ← Kind.decode tag
      let reasons ← plainItems inner rest
      match kind, reasons with
      | .failed, _ => ofReasons kind reasons
      | _, [] => ofReasons kind []
      | _, _ => throw .mismatched
  | _, t => .error t.mismatch

end Outcome

end ControlPlane.Job
