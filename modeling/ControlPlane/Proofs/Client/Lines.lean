import Mathlib
import ControlPlane.Proofs.Client.Bundles
import ControlPlane.Proofs.Client.Scene
import ControlPlane.Proofs.Cluster.Crash
import ControlPlane.Proofs.Cluster.Refusals

/-!
# Lines on which calls fail

A call may fail before it takes effect, or take effect and lose its acknowledgment.  A line says for each call
what becomes of it, and what others do in the meantime, who leave the job alone.

* `Passage`, `Line.ask` — the way of a call, and a call on a line.
* `Handle.performBy`, `submitBy` — the operations of a handle with any way to ask the cluster; `submitBy_ask`
  says that at a site they are the operations of the handle.
* `Handle.performs`, `exists_asked` — what an operation does.
* `Cluster.Deployable`, `plan_deploy_of_covers`, `plan_submit_of_matches` — when deployments and submissions are
  accepted.
* `Line.Asks` — what becomes of a call, and of the rows of the job.
-/

namespace ControlPlane

open Job (State)

/-! ## Lines -/

/-- What becomes of a call on its way. -/
inductive Fate where
  /-- It is carried out, and its answer comes back. -/
  | arrives
  /-- It fails before it takes effect. -/
  | lost (e : ClusterError)
  /-- It takes effect, and its acknowledgment is lost. -/
  | unacknowledged (e : ClusterError)

/-- **The way of one call** about a job: what others do in the meantime, who leave the rows of the job
alone, when the call arrives, and what becomes of it. -/
structure Passage (job : String) where
  meanwhile : Cluster → Cluster
  apart : ∀ c, Store.SameRows job c.store (meanwhile c).store
  now : UInt64
  fate : Fate

namespace Passage

variable {job : String}

/-- Nobody does anything, and nothing goes wrong. -/
def straight (job : String) (now : UInt64) (fate : Fate) : Passage job :=
  ⟨id, fun c => .refl job c.store, now, fate⟩

/-- **A call on its way.** -/
def carry (p : Passage job) (c : Cluster) (key : String) (call : Call) : Answer × Cluster :=
  let (i, d) := (p.meanwhile c).issue p.now.toNat key call
  match p.fate with
  | .arrives => ((i.poll d).getD (.error (.transport "no answer")), d)
  | .lost e => (.error e, p.meanwhile c)
  | .unacknowledged e => (.error e, d)

end Passage

/-- A cluster and the ways of the next calls to it; after them nothing goes wrong. -/
structure Line (job : String) where
  cluster : Cluster
  passages : List (Passage job)

/-- The way of the next call. -/
def Line.next {job : String} (l : Line job) : Passage job :=
  l.passages.headD (.straight job 0 .arrives)

/-- A call on a line. -/
def Line.ask {job : String} (l : Line job) (key : String) (call : Call) : Answer × Line job :=
  let (answer, c) := l.next.carry l.cluster key call
  (answer, ⟨c, l.passages.tail⟩)

namespace Handle

section Ask

variable {σ : Type} (ask : σ → String → Call → Answer × σ)

/-- One operation of a handle, with any way to ask the cluster. -/
def performBy (h : Handle) (s : σ) (i : Intent) : Except JobError State × Handle × σ :=
  match h.control.enter i with
  | .finished result => (result, h, s)
  | _ =>
    match h.control.acquire i with
    | (.calling, control) =>
      let (answer, s) := ask s h.job i.call
      let (result, control) := control.answer i (answer.map fun _ => ())
      let h := { h with control := control }
      (result, if control.poolUp then h else h.giveUp, s)
    | (.finished result, control) => (result, { h with control := control }, s)
    | (.queued, _) => (.error (i.poolFailure h.job), h, s)

/-- A submission, with any way to ask the cluster. -/
def submitBy (h : Handle) (s : σ) (graph : Graph) : Except JobError State × Handle × σ :=
  if h.state = .deployed then h.performBy ask s (.submit graph)
  else match h.control.check .deploy with
    | .error e => (.error e, h, s)
    | .ok _ =>
      let h := { h with bundle := h.bundle.freeze }
      match h.performBy ask s (.deploy h.bundle.toList) with
      | (.error e, h, s) => (.error e, h.reopen, s)
      | (.ok _, h, s) => h.performBy ask s (.submit graph)

end Ask

lemma performBy_ask (h : Handle) (s : Site) (i : Intent) : h.performBy Site.ask s i = h.perform s i :=
  rfl

/-- **The submission of a handle** is the one that asks at its site. -/
lemma submitBy_ask (h : Handle) (s : Site) (graph : Graph) :
    h.submitBy Site.ask s graph = h.submit s graph := by
  unfold submitBy submit
  split
  · rfl
  · cases h.control.check .deploy with
    | error e => rfl
    | ok next =>
        simp only [submitGraph, deploy, performBy_ask]
        rcases ({ h with bundle := h.bundle.freeze } : Handle).perform s (.deploy h.bundle.freeze.toList)
          with ⟨e | next, h', s'⟩ <;> rfl

/-- **What an operation does** that is not a destruction: it is refused at once, or it asks the cluster, and
its event counts if the cluster acknowledges. -/
inductive Performs {σ : Type} (ask : σ → String → Call → Answer × σ) (job : String) (h : Handle) (s : σ)
    (i : Intent) : Except JobError State → Handle → σ → Prop
  | refused (e : JobError) (barred : h.state.next? i.event = none ∨ h.control.poolUp = false) :
      Performs ask job h s i (.error e) h s
  | failed {next : State} (legal : h.state.next? i.event = some next) {e : ClusterError} {s' : σ}
      (asked : ask s job i.call = (.error e, s')) {h' : Handle} (control : h'.control = h.control)
      (bundle : h'.bundle = h.bundle) {e' : JobError} : Performs ask job h s i (.error e') h' s'
  | done {next : State} (legal : h.state.next? i.event = some next) {reply : Reply} {s' : σ}
      (asked : ask s job i.call = (.ok reply, s')) {h' : Handle}
      (control : h'.control = { h.control with state := next }) (bundle : h'.bundle = h.bundle) :
      Performs ask job h s i (.ok next) h' s'

lemma exists_performs {σ : Type} (ask : σ → String → Call → Answer × σ) (h : Handle) (s : σ)
    {i : Intent} (free : h.control.locked = false) (stays : i ≠ .destroy) :
    ∃ result h' s', h.performBy ask s i = (result, h', s') ∧ Performs ask h.job h s i result h' s' := by
  have pending : h.control.isDone i = false := by
    cases i <;> first | rfl | exact absurd rfl stays
  have wrapped : ∀ c : Control, c.wrapUp i = c := fun c => by
    cases i <;> first | rfl | exact absurd rfl stays
  cases legal : h.state.next? i.event with
  | none =>
      have unchecked : h.control.check i.event
          = .error (.illegalTransition h.control.job h.control.state i.event) := by
        simp only [Control.check, show h.control.state.next? i.event = none from legal]
      refine ⟨.error (.illegalTransition h.control.job h.control.state i.event), h, s, ?_,
        .refused _ (.inl legal)⟩
      simp [performBy, Control.enter, pending, unchecked]
  | some next =>
      have checked : h.control.check i.event = .ok next := by
        simp only [Control.check, show h.control.state.next? i.event = some next from legal]
      cases up : h.control.poolUp with
      | false =>
          refine ⟨.error (i.poolFailure h.control.job), h, s, ?_, .refused _ (.inr up)⟩
          simp [performBy, Control.enter, pending, checked, up]
      | true =>
          have entered : h.control.enter i = .queued := by
            simp [Control.enter, pending, checked, up]
          have called : h.control.acquire i = (.calling, { h.control with locked := true }) := by
            simp [Control.acquire, pending, checked, free]
          rcases asked : ask s h.job i.call with ⟨e | reply, s'⟩
          · refine ⟨.error (i.failure h.control.job (.cluster e)), h, s', ?_, .failed legal asked rfl rfl⟩
            simp only [performBy, entered, called, asked, Except.map, Control.answer, up, if_true]
            rw [← free, ← up]
          · have answered : ({ h.control with locked := true } : Control).answer i (.ok ())
                = (.ok next, { h.control with state := next }) := by
              refine (Control.answer_ok (c := { h.control with locked := true }) legal).trans ?_
              rw [wrapped, ← free]
            refine ⟨_, { h with control := { h.control with state := next } }, s', ?_,
              .done legal asked rfl rfl⟩
            simp only [performBy, entered, called, asked, Except.map]
            rw [answered]
            simp only [up, if_true]

/-- **Every operation** that is not a destruction does one of these. -/
theorem performs {σ : Type} {ask : σ → String → Call → Answer × σ} {h h' : Handle} {s s' : σ}
    {i : Intent} {result : Except JobError State} {job : String} (own : h.job = job)
    (free : h.control.locked = false) (stays : i ≠ .destroy)
    (performed : h.performBy ask s i = (result, h', s')) : Performs ask job h s i result h' s' := by
  obtain ⟨_, _, _, same, does⟩ := exists_performs ask h s free stays
  obtain ⟨rfl, rfl, rfl⟩ := by simpa only [Prod.mk.injEq] using same.symm.trans performed
  exact own ▸ does

section Legal

variable {σ : Type} {ask : σ → String → Call → Answer × σ} {h : Handle} {s s' : σ} {i : Intent}
  {state next : State} {job : String} (here : h.state = state)
  (legal : state.next? i.event = some next) (up : h.control.poolUp = true) (own : h.job = job)
  (free : h.control.locked = false) (stays : i ≠ .destroy)

include here legal up own free stays

/-- **A legal operation asks the cluster**, and the answer decides. -/
lemma exists_asked {answer : Answer} (asked : ask s job i.call = (answer, s')) :
    ∃ result h', h.performBy ask s i = (result, h', s') ∧ h'.bundle = h.bundle
      ∧ match answer with
        | .error _ => (∃ e', result = .error e') ∧ h'.control = h.control
        | .ok _ => result = .ok next ∧ h'.control = { h.control with state := next } := by
  subst own here
  obtain ⟨result, h', t, performed, does⟩ := exists_performs ask h s free stays
  cases does with
  | refused e barred => simp [legal, up] at barred
  | @failed _ _ e _ asked' _ control bundle e' =>
      obtain ⟨rfl, rfl⟩ := by simpa only [Prod.mk.injEq] using asked'.symm.trans asked
      exact ⟨_, h', performed, bundle, ⟨e', rfl⟩, control⟩
  | done legal' asked' control bundle =>
      obtain ⟨rfl, rfl⟩ := by simpa only [Prod.mk.injEq] using asked'.symm.trans asked
      obtain rfl := Option.some.inj (legal'.symm.trans legal)
      exact ⟨_, h', performed, bundle, rfl, control⟩

end Legal

end Handle

/-! ## Deployments -/

namespace Cluster

variable {c d : Cluster} {job : String}

/-- What a deployment that changes something has found, and what it writes. -/
lemma deploy_cases (c : Cluster) (job : String) (rs : List Resource) (now : ℕ) :
    (Call.deploy rs).actions c job now = [] ∨ ∃ r, c.findRecord job = .ok r
      ∧ (Call.deploy rs).actions c job now
        = [.putResources job rs, .putJob (r.advance .deployed now)] := by
  rw [Call.actions_eq]
  simp only [Operation.plan_deploy]
  rcases c.findRecord job with e | r
  · exact .inl rfl
  · simp only
    split_ifs
    · rcases (Operation.plan c (Operation.checkResources job rs)).1 with e | _
      · exact .inl rfl
      · exact .inr ⟨r, rfl, rfl⟩
    · exact .inl rfl

/-- **A job that can be deployed**, for the first time or once more. -/
def Deployable (c : Cluster) (job : String) : Prop :=
  ∃ r, c.findRecord job = .ok r ∧ r.name = job ∧ r.Fits
    ∧ (r.status = .registered ∨ r.status = .deployed)

lemma findRecord_of_sameRows (same : Store.SameRows job c.store d.store) :
    d.findRecord job = c.findRecord job := by
  simp only [findRecord, Store.getJob, Store.get, same.record]

lemma Deployable.of_sameRows (h : c.Deployable job) (same : Store.SameRows job c.store d.store) :
    d.Deployable job := by
  simpa only [Deployable, findRecord_of_sameRows same] using h

/-- What is found after a deployment. -/
lemma findRecord_deployed (valid : Job.isName job = true) {r : Record} (name : r.name = job)
    (fits : r.Fits) (rs : List Resource) (now : UInt64) :
    (c.after [.putResources job rs, .putJob (r.advance .deployed now.toNat)]).findRecord job
      = .ok (r.advance .deployed now.toNat) :=
  findRecord_of_stores valid
    (((c.store.putResources job rs).getJob_putJob (fits.advance .deployed now) job).trans (if_pos name))

/-- **A job that can be deployed** still can after a deployment, whatever has come of it. -/
lemma Deployable.deploy (h : c.Deployable job) (rs : List Resource) (now : UInt64) :
    (c.after ((Call.deploy rs).actions c job now.toNat)).Deployable job := by
  rcases c.deploy_cases job rs now.toNat with silent | ⟨r', found', writes⟩
  · rw [silent]
    exact h
  · obtain ⟨r, found, name, fits, -⟩ := h
    obtain rfl := Except.ok.inj (found.symm.trans found')
    rw [writes]
    exact ⟨_, findRecord_deployed (isName_of_findRecord found) name fits rs now, name,
      fits.advance .deployed now, .inr rfl⟩

/-- **A bundle that covers the rows of a job** is deployed. -/
lemma plan_deploy_of_covers {b : Bundle} (proper : b.Proper) (covers : b.Covers job c.store)
    {r : Record} (found : c.findRecord job = .ok r)
    (status : r.status = .registered ∨ r.status = .deployed) (now : ℕ) :
    Operation.plan c (Call.operation job now (.deploy b.toList))
      = (.ok .done, [.putResources job b.toList, .putJob (r.advance .deployed now)]) := by
  have checked := covers.checkResources (c := c) fun r member => (Bundle.mem_toList_iff proper).mp member
  simp only [Call.operation, Operation.plan_map, Operation.plan_deploy, found, status, if_true, checked]
  rfl

/-- **A graph is accepted** when the rows of the job are those of a bundle in which it finds everything. -/
lemma plan_submit_of_matches {b : Bundle} (proper : b.Proper) (rows : b.Matches job c.store)
    {r : Record} (found : c.findRecord job = .ok r) (status : r.status = .deployed) {graph : Graph}
    (complete : ∀ name ∈ graph.references.names, (b.find? name).isSome = true) (now : ℕ) :
    Operation.plan c (Call.operation job now (.submit graph))
      = (.ok .done, [.putGraph job graph, .putJob (r.advance .submitted now)]) := by
  have nothing : Operation.missingReferences graph b.toList = [] := by
    refine List.filter_eq_nil_iff.mpr fun name member => ?_
    obtain ⟨x, there⟩ := Option.isSome_iff_exists.mp (complete name member)
    obtain ⟨rfl, -⟩ := proper name x there
    simpa using ⟨x, (Bundle.mem_toList_iff proper).mpr there, rfl⟩
  simp only [Call.operation, Operation.plan_map, Operation.plan_submit, found, status, if_true,
    rows.listResources proper, nothing]
  rfl

end Cluster

/-! ## Calls on a line -/

namespace Line

variable {job : String} {l l' : Line job} {call : Call} {answer : Answer}

/-- **A call that arrives** is carried out, and its answer comes back. -/
lemma ask_of_arrives (call : Call) (atOnce : call ≠ .await) (arrives : l.next.fate = .arrives) :
    l.ask job call = ((Operation.plan (l.next.meanwhile l.cluster)
      (call.operation job l.next.now.toNat)).1,
      ⟨(l.next.meanwhile l.cluster).after
        (call.actions (l.next.meanwhile l.cluster) job l.next.now.toNat), l.passages.tail⟩) := by
  have answered := (l.next.meanwhile l.cluster).issue_answer l.next.now.toNat job atOnce
  have after := (l.next.meanwhile l.cluster).issue_eq l.next.now.toNat job call
  rcases issued : (l.next.meanwhile l.cluster).issue l.next.now.toNat job call with ⟨i, d⟩
  rw [issued] at answered after
  obtain rfl : i = .answered _ := answered
  obtain rfl : d = _ := after
  simp only [ask, Passage.carry, issued, arrives]
  rfl

/-- **What becomes of a call on a line**: it is lost, or the cluster carries it out, and an acknowledgment
comes from there. -/
inductive Asks (l : Line job) (call : Call) : Answer → Line job → Prop
  | lost (e : ClusterError) {l' : Line job}
      (apart : Store.SameRows job l.cluster.store l'.cluster.store) : Asks l call (.error e) l'
  | carried {c : Cluster} (apart : Store.SameRows job l.cluster.store c.store) (now : UInt64) {l' : Line job}
      (after : l'.cluster = c.after (call.actions c job now.toNat)) {answer : Answer}
      (told : ∀ reply, answer = .ok reply →
        (Operation.plan c (call.operation job now.toNat)).1 = .ok reply) : Asks l call answer l'

/-- **Every call** but a wait fares in one of these ways. -/
theorem asks (atOnce : call ≠ .await) (asked : l.ask job call = (answer, l')) :
    l.Asks call answer l' := by
  have apart := l.next.apart l.cluster
  cases fate : l.next.fate with
  | lost e =>
      simp only [ask, Passage.carry, fate] at asked
      obtain ⟨rfl, rfl⟩ := by simpa only [Prod.mk.injEq] using asked
      exact .lost e apart
  | unacknowledged e =>
      simp only [ask, Passage.carry, fate] at asked
      obtain ⟨rfl, rfl⟩ := by simpa only [Prod.mk.injEq] using asked
      exact .carried apart l.next.now (Cluster.issue_eq _ _ job call) (by simp)
  | arrives =>
      rw [ask_of_arrives call atOnce fate] at asked
      obtain ⟨rfl, rfl⟩ := by simpa only [Prod.mk.injEq] using asked
      exact .carried apart l.next.now rfl fun reply told => told

/-- A call that does not arrive, or of which nothing is heard, has failed. -/
lemma exists_ask_of_fails (call : Call) (fails : l.next.fate ≠ .arrives) :
    ∃ e c, l.ask job call = (.error e, ⟨c, l.passages.tail⟩) := by
  simp only [ask, Passage.carry]
  cases fate : l.next.fate with
  | arrives => exact absurd fate fails
  | lost e => exact ⟨e, _, rfl⟩
  | unacknowledged e => exact ⟨e, _, rfl⟩

/-- **On a link in the same process** a call fares as on a line. -/
lemma exists_ask_of_site (site : Site) (inProcess : site.link.link = .inProcess)
    (clock : site.now < 2 ^ 64) (atOnce : call ≠ .await) (passages : List (Passage job)) :
    ∃ p, ask ⟨site.cluster, p :: passages⟩ job call
      = ((site.ask job call).1, ⟨(site.ask job call).2.cluster, passages⟩) := by
  rcases site.ask_inProcess inProcess job atOnce with ⟨e, fault, still⟩ | ⟨answer, through⟩
  · refine ⟨.straight job 0 (.lost e), ?_⟩
    rw [fault, still]
    rfl
  · have now : (UInt64.ofNat site.now).toNat = site.now := by
      rw [UInt64.toNat_ofNat', Nat.mod_eq_of_lt clock]
    have issued : site.cluster.issue site.now job call
        = (.answered (site.ask job call).1, (site.ask job call).2.cluster) := Prod.ext answer through
    refine ⟨.straight job (UInt64.ofNat site.now) .arrives, ?_⟩
    simp only [ask, next, List.headD_cons, Passage.carry, Passage.straight, id_eq, now, issued]
    rfl

/-- With nothing in the way of any call the next one arrives. -/
lemma next_of_all (all : ∀ p ∈ l.passages, p.fate = .arrives) : l.next.fate = .arrives := by
  obtain ⟨c, passages⟩ := l
  cases passages with
  | nil => rfl
  | cons p rest => exact all p List.mem_cons_self

/-- A job that can be deployed still can after a deployment. -/
lemma Asks.deployable {rs : List Resource} (h : l.Asks (.deploy rs) answer l')
    (able : l.cluster.Deployable job) : l'.cluster.Deployable job := by
  cases h with
  | lost e apart => exact able.of_sameRows apart
  | @carried c apart now _ after =>
      rw [after]
      exact (able.of_sameRows apart).deploy rs now

/-- A graph that has been acknowledged has been written. -/
lemma Asks.submit {graph : Graph} {reply : Reply} (h : l.Asks (.submit graph) (.ok reply) l') :
    l'.cluster.store.graphs.find? job = some (.of graph.toJson) := by
  cases h with
  | @carried c apart now _ after _ told =>
      rcases c.submit_cases job graph now.toNat with silent | ⟨r, resources, -, -, -, -, writes⟩
      · obtain ⟨e, failed⟩ := ((Intent.submit graph).actions_eq_nil_iff c job now.toNat).mp silent
        have answered := told reply rfl
        simp [Intent.call, answered] at failed
      · rw [after, writes]
        show (c.store.graphs.insert job (.of graph.toJson)).find? job = _
        simp

/-- **What a deployment of a bundle does to the rows**, if it covers them: it still covers them, and they
match when the deployment is acknowledged. -/
lemma Asks.deploy {b : Bundle} (h : l.Asks (.deploy b.toList) answer l') (proper : b.Proper)
    (covers : b.Covers job l.cluster.store) :
    b.Covers job l'.cluster.store
      ∧ ∀ reply, answer = .ok reply → b.Matches job l'.cluster.store := by
  cases h with
  | lost e apart => exact ⟨covers.of_rows apart.resource, by simp⟩
  | @carried c apart now _ after _ told =>
      have before : b.Covers job c.store := covers.of_rows apart.resource
      rcases c.deploy_cases job b.toList now.toNat with silent | ⟨r, -, writes⟩
      · rw [silent] at after
        refine ⟨after ▸ before, fun reply acknowledged => ?_⟩
        obtain ⟨e, failed⟩ := ((Intent.deploy b.toList).actions_eq_nil_iff c job now.toNat).mp silent
        have answered := told reply acknowledged
        simp [Intent.call, answered] at failed
      · rw [writes] at after
        have rows := before.putResources proper
        rw [after]
        exact ⟨rows.covers, fun _ _ => rows⟩

/-- A registration and a submission leave the resources alone. -/
lemma Asks.rows (h : l.Asks call answer l')
    (plain : (∃ config, call = .register config) ∨ ∃ graph, call = .submit graph) (name : String) :
    l'.cluster.store.resources.find? (resourceKey job name)
      = l.cluster.store.resources.find? (resourceKey job name) := by
  cases h with
  | lost e apart => exact apart.resource name
  | @carried c apart now _ after =>
      have kept : (c.after (call.actions c job now.toNat)).store.resources = c.store.resources := by
        rcases plain with ⟨config, rfl⟩ | ⟨graph, rfl⟩
        · rw [Call.actions_eq]
          simp only [Operation.plan_register]
          repeat' split
          all_goals rfl
        · rcases c.submit_cases job graph now.toNat with silent | ⟨r, resources, -, -, -, -, writes⟩
          · rw [silent]
            rfl
          · rw [writes]
            rfl
      rw [after, kept]
      exact apart.resource name

end Line

end ControlPlane
