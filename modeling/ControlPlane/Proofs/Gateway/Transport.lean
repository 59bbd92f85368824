import Mathlib
import ControlPlane.Proofs.Cluster.Plan
import ControlPlane.Proofs.Gateway.Paths
import ControlPlane.Proofs.Json.Sources

/-!
# A gateway changes nothing but the failures

A call that is sent to the gateway of a cluster goes through a path, a body, an operation and an
envelope.  Whatever survives being written as JSON comes out at the other end as it went in, and so the
call is carried out as in the same process.  Only a failure is told in another way: by its status and
its message.  The gateway takes bodies of a limited size; a call with a larger one does not get through.

* `Call.Survives`, `Reply.Survives` — what is written as JSON and read back as it was.
* `Remote.plan_requestFor` — the gateway understands the call that has been sent.
* `Remote.plan_large` — the gateway refuses a call whose body is too large.
* `Remote.decodeResponse_respondTo` — the client understands the answer that has been given.
* `Remote.exchange_faithful` — the call through the gateway and the call in the same process.
-/

namespace ControlPlane

/-! ## What survives -/

/-- **What a call carries is read back** as it was.  The answer to a deployment counts the resources,
with sixty-four bits. -/
def Call.Survives : Call → Prop
  | .register config => Json.decode JobConfig.decoder config.toJson.text.toList = .ok config
  | .deploy resources =>
    Json.decode (.list Resource.decoder)
      (Json.Value.array (resources.map Resource.toJson)).text.toList = .ok resources
      ∧ resources.length < 2 ^ 64
  | .submit graph => Json.decode Graph.decoder graph.toJson.text.toList = .ok graph
  | .start | .await | .interrupt | .destroy | .accumulators => True

/-- **Counters in an answer are read back** as they were; all other answers always are. -/
def Reply.Survives : Reply → Prop
  | .counters a => Json.decode Accumulators.decoder a.toJson.text.toList = .ok a
  | .done | .outcome _ => True

/-- What a gateway understands by a call about a job. -/
def Call.plan (job : String) : Call → Gateway.Plan
  | .register config => .register job config
  | .deploy resources => .deploy job resources
  | .submit graph => .submit job graph
  | .start => .start job
  | .await => .await job
  | .interrupt => .interrupt job
  | .destroy => .destroy job
  | .accumulators => .accumulators job

/-! ## Envelopes -/

namespace Gateway.Envelope

variable {α β : Type} {d : Json.Decoder α} {v : Json.Value} {a : α}

/-- **Data in an envelope** is read as it is alone, one bracket deeper. -/
lemma decoder_ok {depth : ℕ} (some_data : v.tree ≠ .null) (read : d (depth + 1) v.tree = .ok a) :
    decoder d (depth + 2) (Json.Value.object [("success", .bool true), ("data", v)]).tree
      = .ok (Envelope.ok a) := by
  have optional : Json.Decoder.optional d (depth + 1) v.tree = .ok (some a) := by
    unfold Json.Decoder.optional
    split
    · next missing => exact absurd missing some_data
    · rw [read]; rfl
  simp [Json.Value.tree, Json.memberTrees, decoder, Json.Decoder.record, Json.enter,
    Json.Decoder.recordMembers, Json.Decoder.check, Json.Decoder.bool, optional, Json.Ending.strict,
    Json.Decoder.Fields.required, Json.Decoder.Fields.optional, List.lookup, bind, Except.bind, pure,
    Except.pure, Envelope.ok]

/-- **A message in an envelope** is read, whatever the data should have been. -/
lemma decoder_failure (d : Json.Decoder α) (depth : ℕ) (m : String) :
    decoder d (depth + 2) (Json.Value.object [("success", .bool false), ("error", .string m)]).tree
      = .ok (Envelope.failure m) := by
  simp [Json.Value.tree, Json.memberTrees, decoder, Json.Decoder.record, Json.enter,
    Json.Decoder.recordMembers, Json.Decoder.check, Json.Decoder.bool, Json.Decoder.string,
    Json.Decoder.optional, Json.Ending.strict, Json.Decoder.Fields.required,
    Json.Decoder.Fields.optional, List.lookup, bind, Except.bind, pure, Except.pure, Except.map,
    Envelope.failure]

end Gateway.Envelope

/-! ## Answers as they arrive -/

namespace Remote

open Gateway

variable {α β : Type} {job : String} {call : Call}

/-- A success arrives as a success. -/
lemma envelopeOf_ok {d : Json.Decoder β} {data : α → Json.Value} {a : α} {b : β} {status : ℕ}
    (success : Http.isSuccess status = true)
    (numbers : (data a).AllNumbers Json.Number.Stands) (some_data : (data a).tree ≠ .null)
    (read : d Json.maxDepth (data a).tree = .ok b) :
    envelopeOf d status ((Envelope.ok a).toJson data).text = .ok (Envelope.ok b) := by
  have text : ((Envelope.ok a).toJson data).text.toList
      = (Json.Value.object [("success", .bool true), ("data", data a)]).chars := by
    simp [Json.Value.text, Envelope.toJson, Envelope.ok]
  have whole : (Json.Value.object [("success", .bool true), ("data", data a)]).AllNumbers
      Json.Number.Stands := ⟨trivial, numbers, trivial⟩
  rw [envelopeOf, text, Json.decode_chars whole, show Json.maxDepth + 1 = 126 + 2 from rfl,
    Envelope.decoder_ok some_data read]
  simp [success, Envelope.ok]

/-- A failure arrives with its status and its message. -/
lemma envelopeOf_failure (d : Json.Decoder α) {status : ℕ}
    (refused : Http.isSuccess status = false) (m : String) :
    envelopeOf d status ((Envelope.failure m).toJson fun (_ : Unit) => .null).text
      = .error (.remote status m) := by
  have text : ((Envelope.failure m).toJson fun (_ : Unit) => .null).text.toList
      = (Json.Value.object [("success", .bool false), ("error", .string m)]).chars := by
    simp [Json.Value.text, Envelope.toJson, Envelope.failure]
  have whole : (Json.Value.object [("success", .bool false), ("error", .string m)]).AllNumbers
      Json.Number.Stands := ⟨trivial, trivial, trivial⟩
  rw [envelopeOf, text, Json.decode_chars whole, show Json.maxDepth + 1 = 126 + 2 from rfl,
    Envelope.decoder_failure]
  simp [refused, failureOf, Envelope.failure]

lemma status_refused (e : ClusterError) :
    Http.isSuccess e.status = false ∧ isBodiless e.status = false := by
  cases e <;> exact ⟨rfl, rfl⟩

/-- **A failure of the cluster** arrives with its status and its message. -/
lemma decodeResponse_failure {r : Http.Request} (body : r.method ≠ "HEAD") (job : String)
    (call : Call) (e : ClusterError) :
    decodeResponse job call (respondError r e) = .error (.remote e.status e.message) := by
  obtain ⟨refused, some_body⟩ := status_refused e
  have envelope : ∀ {α} (d : Json.Decoder α), envelopeOf d e.status
      ((Envelope.failure e.message).toJson fun (_ : Unit) => .null).text
        = .error (.remote e.status e.message) := fun d => envelopeOf_failure d refused _
  simp only [decodeResponse, respondError, respond, some_body, if_neg body]
  cases call <;> simp [decode, envelope, bind, Except.bind]

/-- What an answer becomes on its way through a gateway. -/
def carried (answer : Answer) : Answer := answer.mapError fun e => .remote e.status e.message

/-- **An answer of an operation** arrives, if the data of a success do. -/
lemma decodeResponse_respondTo {r : Http.Request} (body : r.method ≠ "HEAD") {status : ℕ}
    {data : α → Json.Value} {reply : α → Reply} {answer : Except ClusterError α}
    (arrives : ∀ a, answer = .ok a →
      decode job call status ((Envelope.ok a).toJson data).text = .ok (reply a))
    (some_body : isBodiless status = false) :
    decodeResponse job call (respondTo r status data answer) = carried (answer.map reply) := by
  cases answer with
  | error e => exact decodeResponse_failure body job call e
  | ok a =>
      simp only [respondTo, decodeResponse, respond, some_body, if_neg body]
      exact arrives a rfl

/-- The data of a success without data of its own is not looked at. -/
lemma decode_done {status : ℕ} {text : String} {e : Envelope Json.Value} (waits : call ≠ .await)
    (counts : call ≠ .accumulators) (envelope : envelopeOf Json.Decoder.value status text = .ok e) :
    decode job call status text = .ok .done := by
  cases call <;> simp_all [decode, bind, Except.bind, pure, Except.pure]

lemma decode_word {status : ℕ} (success : Http.isSuccess status = true) (waits : call ≠ .await)
    (counts : call ≠ .accumulators) (w : String) :
    decode job call status ((Envelope.ok ()).toJson (word w)).text = .ok .done :=
  decode_done (e := .ok (.string w)) waits counts
    (envelopeOf_ok success trivial (by simp [word, Json.Value.tree]) rfl)

lemma decode_count {status n : ℕ} (success : Http.isSuccess status = true) (fits : n < 2 ^ 64)
    (rs : List Resource) :
    decode job (.deploy rs) status
      ((Envelope.ok ()).toJson fun (_ : Unit) => Json.Value.number (.int n)).text = .ok .done := by
  have isWord := Json.isWord_of_lt fits
  have tree : (Json.Value.number (.int n)).tree = .number (.ok (.int n)) := Json.Number.tree_int isWord
  refine decode_done (e := .ok (.number (.int n))) (by simp) (by simp) ?_
  refine envelopeOf_ok success (Json.Number.stands_int isWord) (by simp [tree]) ?_
  rw [tree]
  rfl

lemma decode_outcome {status : ℕ} (success : Http.isSuccess status = true) (o : Job.Outcome) :
    decode job .await status ((Envelope.ok o).toJson Job.Outcome.toJson).text
      = .ok (.outcome o) := by
  have numbers : o.toJson.AllNumbers Json.Number.Stands := by
    cases o <;> simp [Job.Outcome.toJson, Json.Value.AllNumbers, Json.AllInMembers]
  have read : Job.Outcome.decoder Json.maxDepth o.toJson.tree = .ok o := by
    cases o <;> rfl
  have envelope := envelopeOf_ok (a := o) success numbers
    (by cases o <;> simp [Job.Outcome.toJson, Json.Value.tree]) read
  simp only [decode, envelope]
  rfl

lemma decode_counters {status : ℕ} (success : Http.isSuccess status = true) {a : Accumulators}
    (survives : Json.decode Accumulators.decoder a.toJson.text.toList = .ok a) :
    decode job .accumulators status ((Envelope.ok a).toJson Accumulators.toJson).text
      = .ok (.counters a) := by
  obtain ⟨depth, t, read⟩ := Json.exists_of_decode survives
  have range := Accumulators.inRange_of_decoder read
  have numbers := Accumulators.allNumbers range
  have chars : a.toJson.text.toList = a.toJson.chars := by simp [Json.Value.text]
  have reread : a.reread = .ok a := by
    rwa [chars, Json.decode_chars numbers, show Json.maxDepth + 1 = 125 + 3 from rfl,
      Accumulators.decoder_tree range] at survives
  have envelope := envelopeOf_ok (a := a) success numbers
    (by simp [Accumulators.toJson, Json.Value.tree])
    ((Accumulators.decoder_tree range 124).trans reread)
  simp only [decode, envelope]
  rfl

/-! ## Requests as they are understood -/

lemma declaresJson_requestFor (address job : String) (call : Call) :
    declaresJson (requestFor address job call) = true := by
  have declared : (requestFor address job call).header? "content-type" = some "application/json" := by
    rw [Http.Request.header?, requestFor, lengthHeader]
    split_ifs <;> simp [List.lookup]
  rw [declaresJson, declared]
  decide

/-- The route of a request to the path of a job. -/
lemma plan_jobPath (valid : Job.isName job = true) {r : Http.Request} (path : r.target = jobPath job) :
    Gateway.plan r = planOf (.job job.toList) r := by
  rw [Gateway.plan, path, segments_jobPath valid, Option.bind_some, route_job valid]

/-- The route of a request to the path of a part of a job. -/
lemma plan_jobSubpath (valid : Job.isName job = true) {r : Http.Request} {part : String}
    {route : Route} (path : r.target = jobSubpath job part)
    (clear : ∀ c ∈ part.toList, Job.isNameChar c = true)
    (known : Route.ofPart? job.toList part.toList = some route) :
    Gateway.plan r = planOf route r := by
  rw [Gateway.plan, path, segments_jobSubpath valid clear, Option.bind_some, route_jobSubpath, known]

/-- **The gateway understands the call** that has been sent: it is the same operation, about the same
job, with the same values. -/
lemma plan_requestFor (valid : Job.isName job = true) (address : String) (survives : call.Survives)
    (small : (body call).utf8ByteSize ≤ maxBodyBytes) :
    Gateway.plan (requestFor address job call) = .ok (call.plan job) := by
  have declared := declaresJson_requestFor address job call
  have name : nameOf job.toList = .ok job := by rw [nameOf, Http.decodeSegment_of_isName valid]
  have body : ∀ {β} {d : Json.Decoder β} {b : β},
      Json.decode d (requestFor address job call).body.toList = .ok b →
      bodyOf d (requestFor address job call) = .ok b := by
    intro β d b read
    have taken : ¬maxBodyBytes < (requestFor address job call).body.utf8ByteSize := Nat.not_lt.mpr small
    rw [bodyOf, declared, Bool.not_true, if_neg Bool.false_ne_true, if_neg taken, read]
    rfl
  cases call with
  | register config =>
    rw [plan_jobPath valid rfl, planOf, name, body survives]
    rfl
  | destroy =>
    rw [plan_jobPath valid rfl, planOf, name]
    rfl
  | deploy resources =>
    rw [plan_jobSubpath valid rfl (by simp [Job.isNameChar]) rfl, planOf, name, body survives.1]
    rfl
  | submit graph =>
    rw [plan_jobSubpath valid rfl (by simp [Job.isNameChar]) rfl, planOf, name, body survives]
    rfl
  | start | await | interrupt | accumulators =>
    rw [plan_jobSubpath valid rfl (by simp [Job.isNameChar]) rfl, planOf, name]
    rfl

/-- Only a registration, a deployment and a submission have a body. -/
lemma body_large (large : maxBodyBytes < (body call).utf8ByteSize) :
    (∃ config, call = .register config) ∨ (∃ resources, call = .deploy resources)
      ∨ ∃ graph, call = .submit graph := by
  cases call with
  | register config => exact .inl ⟨config, rfl⟩
  | deploy resources => exact .inr (.inl ⟨resources, rfl⟩)
  | submit graph => exact .inr (.inr ⟨graph, rfl⟩)
  | start | await | interrupt | destroy | accumulators => exact absurd large (Nat.not_lt_zero _)

/-- **The gateway refuses a body that is too large**, whatever it says. -/
lemma plan_large (valid : Job.isName job = true) (address : String)
    (large : maxBodyBytes < (body call).utf8ByteSize) :
    Gateway.plan (requestFor address job call) = .error payloadTooLarge := by
  have declared := declaresJson_requestFor address job call
  have name : nameOf job.toList = .ok job := by rw [nameOf, Http.decodeSegment_of_isName valid]
  have body : ∀ {β} (d : Json.Decoder β),
      bodyOf d (requestFor address job call) = .error payloadTooLarge := by
    intro β d
    have exceeded : maxBodyBytes < (requestFor address job call).body.utf8ByteSize := large
    rw [bodyOf, declared, Bool.not_true, if_neg Bool.false_ne_true, if_pos exceeded]
  obtain ⟨config, rfl⟩ | ⟨resources, rfl⟩ | ⟨graph, rfl⟩ := body_large large
  · rw [plan_jobPath valid rfl, planOf, name, body]
    rfl
  · rw [plan_jobSubpath valid rfl (by simp [Job.isNameChar]) rfl, planOf, name, body]
    rfl
  · rw [plan_jobSubpath valid rfl (by simp [Job.isNameChar]) rfl, planOf, name, body]
    rfl

/-! ## Calls through a gateway -/

lemma method_ne_head (address job : String) (call : Call) :
    (requestFor address job call).method ≠ "HEAD" := by
  cases call <;> simp [requestFor, methodAndPath]

/-- **An operation carried out for a request** is the operation of the call, and its answer arrives if
the data of a success do. -/
lemma exchange_of_carryOut {c : Cluster} {now status : ℕ} {address : String} {op : Operation α}
    {data : α → Json.Value} {f : α → Reply} (valid : Job.isName job = true)
    (atOnce : call ≠ .await) (operation : call.operation job now = do let a ← op; return f a)
    (handled : Gateway.handle c now (requestFor address job call)
      = carryOut c (requestFor address job call) status data op)
    (some_body : isBodiless status = false) :
    (exchange c now address job call).2 = (c.issue now job call).2
      ∧ ∀ later, (∀ a, (c.issue now job call).1.poll later = some (.ok (f a)) →
          decode job call status ((Envelope.ok a).toJson data).text = .ok (f a)) →
        (exchange c now address job call).1.poll later
          = ((c.issue now job call).1.poll later).map carried := by
  have answer := c.issue_answer now job atOnce
  have state := c.issue_eq now job call
  rw [operation, Operation.plan_map] at answer
  rw [Call.actions, operation, Operation.plan_map] at state
  have carriedOut : carryOut c (requestFor address job call) status data op
      = (.answered (respondTo (requestFor address job call) status data (Operation.plan c op).1),
        c.after (Operation.plan c op).2) := by
    simp only [carryOut, Program.run_eq_plan, Operation.plan]
  rw [exchange_eq valid, handled, carriedOut, state, answer]
  refine ⟨rfl, fun later arrives => ?_⟩
  refine congrArg some (decodeResponse_respondTo (method_ne_head address job call) ?_ some_body)
  intro a succeeded
  exact arrives a (by rw [succeeded]; rfl)

/-- A call that answers nothing is answered through a gateway with a word. -/
lemma exchange_of_word {c : Cluster} {now status : ℕ} {address w : String} {op : Operation Unit}
    (valid : Job.isName job = true) (atOnce : call ≠ .await) (counts : call ≠ .accumulators)
    (operation : call.operation job now = do op; return .done)
    (handled : Gateway.handle c now (requestFor address job call)
      = carryOut c (requestFor address job call) status (word w) op)
    (success : Http.isSuccess status = true) (some_body : isBodiless status = false) :
    (exchange c now address job call).2 = (c.issue now job call).2
      ∧ ∀ later, (exchange c now address job call).1.poll later
        = ((c.issue now job call).1.poll later).map carried := by
  obtain ⟨state, polls⟩ :=
    exchange_of_carryOut (f := fun _ => .done) valid atOnce operation handled some_body
  exact ⟨state, fun later => polls later fun _ _ => decode_word success atOnce counts w⟩

/-- Waiting through a gateway lasts as long as waiting in the same process. -/
lemma poll_respondOutcome (address : String) (w : Waiter) (later : Cluster) :
    (Sent.sent job .await (.waiting (requestFor address job .await) w)).poll later
      = ((Issued.waiting w).poll later).map carried := by
  simp only [Sent.poll, Exchange.poll, Issued.poll]
  cases w.poll later with
  | none => rfl
  | some answer =>
      refine congrArg some (decodeResponse_respondTo (method_ne_head address job .await) ?_ rfl)
      exact fun o _ => decode_outcome rfl o

/-- A call whose body is too large leaves the cluster as it is, and fails with the status of that. -/
lemma exchange_large (c : Cluster) (now : ℕ) (address : String) (valid : Job.isName job = true)
    (large : maxBodyBytes < (body call).utf8ByteSize) :
    (exchange c now address job call).2 = c
      ∧ ∃ message, ∀ later : Cluster,
        (exchange c now address job call).1.poll later = some (.error (.remote payloadTooLarge message)) := by
  have handled : Gateway.handle c now (requestFor address job call)
      = (.answered (refuse payloadTooLarge), c) := by
    rw [Gateway.handle, plan_large valid address large]
  rw [exchange_eq valid, handled]
  refine ⟨rfl, "", fun later => ?_⟩
  obtain ⟨config, rfl⟩ | ⟨resources, rfl⟩ | ⟨graph, rfl⟩ := body_large large <;> rfl

/-- A call that the gateway understands is the same call about the same job there. -/
lemma exchange_understood (c : Cluster) (now : ℕ) (address : String) (valid : Job.isName job = true)
    (survives : call.Survives)
    (understood : Gateway.plan (requestFor address job call) = .ok (call.plan job)) :
    (exchange c now address job call).2 = (c.issue now job call).2
      ∧ ∀ later : Cluster,
        (∀ v, (c.issue now job call).1.poll later = some (.ok v) → v.Survives) →
        (exchange c now address job call).1.poll later
          = ((c.issue now job call).1.poll later).map carried := by
  have handled := Gateway.handle.eq_def c now (requestFor address job call)
  rw [understood] at handled
  cases call with
  | register _ | submit _ =>
      obtain ⟨state, polls⟩ := exchange_of_word valid (by simp) (by simp) rfl handled rfl rfl
      exact ⟨state, fun later _ => polls later⟩
  | start | interrupt | destroy =>
      obtain ⟨state, polls⟩ := exchange_of_word valid (by simp) (by simp) rfl handled rfl rfl
      exact ⟨state, fun later _ => polls later⟩
  | deploy resources =>
      obtain ⟨state, polls⟩ :=
        exchange_of_carryOut (f := fun _ => .done) valid (by simp) rfl handled rfl
      exact ⟨state, fun later _ => polls later fun _ _ => decode_count rfl survives.2 resources⟩
  | accumulators =>
      obtain ⟨state, polls⟩ := exchange_of_carryOut (f := .counters) valid (by simp) rfl handled rfl
      exact ⟨state, fun later kept => polls later fun a read => decode_counters rfl (kept _ read)⟩
  | await =>
      have waits : Gateway.handle c now (requestFor address job .await)
          = (.waiting (requestFor address job .await) (Waiter.start c job), c) := handled
      rw [exchange_eq valid, waits]
      exact ⟨rfl, fun later _ => poll_respondOutcome address (Waiter.start c job) later⟩

/-- **A call through a gateway** is the same call about the same job there, leaves the cluster as the
call in the same process does, and is answered when that one is: by the same success, or by the status
and the message of the same failure.  A call whose body is larger than the gateway takes is refused at
once, and nothing happens. -/
theorem exchange_faithful (c : Cluster) (now : ℕ) (address : String) (valid : Job.isName job = true)
    (survives : call.Survives) :
    ((body call).utf8ByteSize ≤ maxBodyBytes →
      (∃ r, request address job call = .ok r ∧ Gateway.plan r = .ok (call.plan job))
        ∧ (exchange c now address job call).2 = (c.issue now job call).2
        ∧ ∀ later : Cluster,
          (∀ v, (c.issue now job call).1.poll later = some (.ok v) → v.Survives) →
          (exchange c now address job call).1.poll later
            = ((c.issue now job call).1.poll later).map carried)
      ∧ (maxBodyBytes < (body call).utf8ByteSize →
        (exchange c now address job call).2 = c
          ∧ ∃ message, ∀ later : Cluster,
            (exchange c now address job call).1.poll later
              = some (.error (.remote payloadTooLarge message))) := by
  refine ⟨fun small => ?_, exchange_large c now address valid⟩
  have understood := plan_requestFor valid address survives small
  exact ⟨⟨_, request_eq valid address call, understood⟩,
    exchange_understood c now address valid survives understood⟩

/-- The counters of a job that has no record. -/
def sevenRows : Accumulators := Table.empty.insert "rows" (.long 7)

/-- A cluster over a store with these counters. -/
def counting : Cluster := .ofStore (Store.empty.putAccumulators "a" sevenRows) acknowledge

lemma sevenRows_row : Row.decode Accumulators.decoder (.of sevenRows.toJson) = .ok sevenRows := by
  have range : sevenRows.InRange := Accumulators.InRange.empty.insert "rows" (by
    constructor <;> simp [Accumulator.minLong, Accumulator.maxLong])
  have reread : sevenRows.reread = .ok sevenRows := by
    refine Accumulators.reread_eq_self_iff.mpr fun name x found => ?_
    rw [sevenRows, Table.find?_insert] at found
    split_ifs at found <;> simp at found
  rw [Accumulators.decode_row range, reread]
  rfl

/-- The counters of one job and the refusal to start another, both through a gateway. -/
theorem counters_and_refusal_arrive :
    (exchange counting 0 "here" "a" .accumulators).1.poll counting
        = some (.ok (.counters sevenRows))
      ∧ (exchange counting 0 "here" "b" .start).1.poll counting
        = some (.error (.remote 404 "job 'b' not found")) := by
  have told : (counting.issue 0 "a" .accumulators).1.poll counting
      = some (.ok (.counters sevenRows)) := by
    have stored : counting.store.getAccumulators "a" = .ok (some sevenRows) :=
      congrArg (Except.map some) sevenRows_row
    rw [Cluster.issue_answer counting 0 "a" (by simp), Call.operation, Operation.plan_map,
      Operation.plan_accumulators, stored]
    rfl
  have refused : (counting.issue 0 "b" .start).1.poll counting = some (.error (.jobNotFound "b")) := rfl
  have first := ((exchange_faithful counting 0 "here" (show Job.isName "a" = true by decide)
    (show Call.accumulators.Survives from trivial)).1 (Nat.zero_le _)).2.2 counting
  have second := ((exchange_faithful counting 0 "here" (show Job.isName "b" = true by decide)
    (show Call.start.Survives from trivial)).1 (Nat.zero_le _)).2.2 counting
  rw [told] at first
  rw [refused] at second
  refine ⟨first fun v same => ?_, second fun v same => ?_⟩
  · obtain rfl : .counters sevenRows = v := by simpa using same
    exact Row.decode_eq_ok_iff.mp sevenRows_row
  · simp at same

/-! ## A body that is too large -/

lemma length_le_utf8ByteSize (s : List Char) : s.length ≤ (String.ofList s).utf8ByteSize := by
  rw [String.utf8ByteSize_ofList]
  induction s with
  | nil => exact Nat.le_refl 0
  | cons c rest ih =>
      have some_byte := Char.utf8Size_pos c
      rw [List.length_cons, String.utf8Len_cons]
      omega

lemma length_le_quoted (s : String) : s.toList.length ≤ (Json.quoted s).length := by
  have each : ∀ c, 1 ≤ (Json.escape c).length := by
    intro c
    unfold Json.escape
    split
    · simp
    · split <;> simp
  have all : ∀ cs : List Char, cs.length ≤ (cs.flatMap Json.escape).length := by
    intro cs
    induction cs with
    | nil => exact Nat.le_refl 0
    | cons c rest ih =>
        have first := each c
        rw [List.flatMap_cons, List.length_append, List.length_cons]
        omega
  have inside := all s.toList
  rw [Json.quoted, List.length_cons, List.length_append]
  omega

/-- Settings with a property of a given length. -/
def wordy (length : ℕ) : JobConfig :=
  JobConfig.standard.withProperty "note" (String.ofList (List.replicate length 'a'))

/-- The body is larger than the property in it. -/
lemma length_lt_body (length : ℕ) : length < (body (.register (wordy length))).utf8ByteSize := by
  have note := length_le_quoted (String.ofList (List.replicate length 'a'))
  have whole := length_le_utf8ByteSize (wordy length).toJson.chars
  rw [String.toList_ofList, List.length_replicate] at note
  have around : (Json.quoted (String.ofList (List.replicate length 'a'))).length
      < (wordy length).toJson.chars.length := by
    have entries : (wordy length).properties.entries
        = [("note", String.ofList (List.replicate length 'a'))] := rfl
    simp [JobConfig.toJson, Json.Value.chars, Json.memberChars, Table.map, entries]
    omega
  have text : body (.register (wordy length)) = String.ofList (wordy length).toJson.chars := rfl
  rw [text]
  omega

/-- Settings that are read back as they were, and whose text is larger than any body may be. -/
def tooWordy : JobConfig := wordy maxBodyBytes

/-- A registration that is acknowledged and stored in the same process, and refused by the gateway. -/
theorem large_registration_is_refused :
    (Call.register tooWordy).Survives
      ∧ (counting.issue 0 "b" (.register tooWordy)).1.poll counting = some (.ok .done)
      ∧ (counting.issue 0 "b" (.register tooWordy)).2
        = counting.after [.putJob (Record.new "b" tooWordy 0)]
      ∧ (exchange counting 0 "here" "b" (.register tooWordy)).2 = counting
      ∧ ∃ message, (exchange counting 0 "here" "b" (.register tooWordy)).1.poll counting
        = some (.error (.remote 413 message)) := by
  have valid : Job.isName "b" = true := by decide
  have fits : tooWordy.Fits := ⟨by decide, by decide⟩
  have survives : (Call.register tooWordy).Survives := by
    rw [Call.Survives, Json.Value.text, String.toList_ofList, Json.decode_chars (JobConfig.allNumbers fits),
      show Json.maxDepth + 1 = 125 + 3 from rfl, JobConfig.decoder_tree fits]
  have plan : Operation.plan counting (Operation.register "b" tooWordy 0)
      = (.ok (), [.putJob (Record.new "b" tooWordy 0)]) := by
    rw [Operation.plan_register, if_pos valid]
    rfl
  have answer := counting.issue_answer 0 "b" (show Call.register tooWordy ≠ .await by simp)
  have state := counting.issue_eq 0 "b" (.register tooWordy)
  rw [Call.operation, Operation.plan_map, plan] at answer
  rw [Call.actions_eq] at state
  simp only [plan] at state
  obtain ⟨unchanged, message, refused⟩ :=
    exchange_large counting 0 "here" valid (length_lt_body maxBodyBytes)
  refine ⟨survives, ?_, state, unchanged, message, refused counting⟩
  rw [answer]
  rfl

end Remote

end ControlPlane
