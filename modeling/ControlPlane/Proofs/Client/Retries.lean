import Mathlib
import ControlPlane.Proofs.Client.Lines

/-!
# Submissions that are repeated

A handle is used by one caller at a time, on a line on which calls fail: some before they take effect, and of
some only the acknowledgment is lost.  After a lost acknowledgment the cluster is ahead of the handle, the bundle
is open again, and it may have grown when it is deployed once more.

* `Caller`, `Caller.run` — a handle on a line, and what is done with it.
* `Caller.Consistent` — the invariant: the bundle is never behind the rows of the job, and level with them as
  soon as the handle knows that the job has been deployed.
* `Caller.submission_delivers` — what is stored when a submission is acknowledged.
* `Caller.Ready`, `Ready.retries` — a deployment can be repeated as often as it fails.
-/

namespace ControlPlane

open Job (State)

/-- A job becomes deployed by a deployment. -/
lemma Job.State.eq_of_next_deployed {s : State} {e : Job.Event} (legal : s.next? e = some .deployed) :
    s = .initialized ∧ e = .deploy := by
  cases Job.next?_eq_some_iff.mp legal
  exact ⟨rfl, rfl⟩

/-- Only what has been deployed can be submitted. -/
lemma Job.State.eq_of_next_submit {s t : State} (legal : s.next? .submit = some t) : s = .deployed := by
  cases Job.next?_eq_some_iff.mp legal
  rfl

/-! ## Callers -/

/-- What a caller does with the handle. -/
inductive Use where
  | init (config : JobConfig)
  | add (a : Addition)
  | submit (graph : Graph)

/-- A handle and the line on which it reaches the cluster. -/
structure Caller (job : String) where
  handle : Handle
  line : Line job

namespace Caller

variable {job : String}

/-- **One use of a handle.** -/
def use (w : Caller job) : Use → Caller job
  | .init config =>
    let (_, h, l) := w.handle.performBy Line.ask w.line (.init config)
    ⟨h, l⟩
  | .add a => { w with handle := (w.handle.addTo a.addTo).2 }
  | .submit graph =>
    let (_, h, l) := w.handle.submitBy Line.ask w.line graph
    ⟨h, l⟩

/-- **Uses one after the other.** -/
def run (w : Caller job) (uses : List Use) : Caller job := uses.foldl use w

/-! ## The invariant -/

/-- **The bundle is never behind the rows of the job**, and once the handle knows that the job has been
deployed nothing more is added, and the rows are those of the bundle. -/
structure Consistent (w : Caller job) : Prop where
  own : w.handle.job = job
  free : w.handle.control.locked = false
  proper : w.handle.bundle.Proper
  covers : w.handle.bundle.Covers job w.line.cluster.store
  deployed : w.handle.state = .deployed →
    w.handle.bundle.frozen = true ∧ w.handle.bundle.Matches job w.line.cluster.store

/-- **What a submission that is acknowledged has brought about.** -/
structure Delivered (w : Caller job) (graph : Graph) : Prop where
  frozen : w.handle.bundle.frozen = true
  rows : w.handle.bundle.Matches job w.line.cluster.store
  graph : w.line.cluster.store.graphs.find? job = some (.of graph.toJson)

namespace Consistent

variable {w v : Caller job}

/-- The same bundle over the same rows, in a state of which nothing more has to be known. -/
lemma of_same (h : w.Consistent) {next : State}
    (control : v.handle.control = { w.handle.control with state := next })
    (bundle : v.handle.bundle = w.handle.bundle)
    (rows : ∀ name, v.line.cluster.store.resources.find? (resourceKey job name)
      = w.line.cluster.store.resources.find? (resourceKey job name))
    (state : next = .deployed → w.handle.state = .deployed) : v.Consistent where
  own := by rw [Handle.job, control]; exact h.own
  free := by rw [control]; exact h.free
  proper := bundle ▸ h.proper
  covers := bundle ▸ h.covers.of_rows rows
  deployed := fun deployed => by
    rw [Handle.state, control] at deployed
    obtain ⟨frozen, rows_match⟩ := h.deployed (state deployed)
    exact bundle ▸ ⟨frozen, rows_match.of_rows rows⟩

/-- A job of which nothing is stored. -/
lemma start {h : Handle} (made : Handle.new job = .ok h) {line : Line job}
    (unused : Store.SameRows job .empty line.cluster.store) : Consistent ⟨h, line⟩ := by
  unfold Handle.new at made
  split_ifs at made
  obtain rfl := Except.ok.inj made
  refine ⟨rfl, rfl, Bundle.empty_proper, fun name row found => ?_, by simp [Handle.state, Handle.ofName, Control.new]⟩
  rw [show line.cluster.store.resources.find? (resourceKey job name) = none from unused.resource name] at found
  simp at found

/-- An operation that is no deployment. -/
lemma plain (h : w.Consistent) {i : Intent}
    (plain : (∃ config, i = .init config) ∨ ∃ graph, i = .submit graph)
    {result : Except JobError State} {h' : Handle} {l' : Line job}
    (performed : w.handle.performBy Line.ask w.line i = (result, h', l')) :
    Consistent ⟨h', l'⟩ := by
  have stays : i ≠ .destroy := by rcases plain with ⟨_, rfl⟩ | ⟨_, rfl⟩ <;> simp
  have atOnce : i.call ≠ .await := by rcases plain with ⟨_, rfl⟩ | ⟨_, rfl⟩ <;> simp [Intent.call]
  have leaves : (∃ config, i.call = .register config) ∨ ∃ graph, i.call = .submit graph := by
    rcases plain with ⟨c, rfl⟩ | ⟨g, rfl⟩
    · exact .inl ⟨c, rfl⟩
    · exact .inr ⟨g, rfl⟩
  cases Handle.performs h.own h.free stays performed with
  | refused e barred => exact h
  | failed legal asked control bundle =>
      exact h.of_same control bundle ((Line.asks atOnce asked).rows leaves) id
  | @done next legal reply l' asked h' control bundle =>
      refine h.of_same control bundle ((Line.asks atOnce asked).rows leaves) ?_
      rintro rfl
      have deploys := (Job.State.eq_of_next_deployed legal).2
      rcases plain with ⟨_, rfl⟩ | ⟨_, rfl⟩ <;> simp [Intent.event] at deploys

/-- **Additions** come to nothing once the bundle is frozen. -/
lemma add (h : w.Consistent) (a : Addition) : (w.use (.add a)).Consistent := by
  simp only [use]
  cases added : a.addTo w.handle.bundle with
  | error e =>
      simp only [Handle.addTo, added]
      exact h
  | ok grown =>
      obtain ⟨n, b⟩ := grown
      have grows := Bundle.grows_of_addTo added
      simp only [Handle.addTo, added]
      refine ⟨h.own, h.free, grows.proper h.proper, h.covers.grows grows, fun deployed => ?_⟩
      have frozen := (h.deployed deployed).1
      simp [a.addTo_frozen frozen] at added

/-- **A deployment** of the frozen bundle. -/
lemma deploy (h : w.Consistent) (frozen : w.handle.bundle.frozen = true)
    {result : Except JobError State} {h' : Handle} {l' : Line job}
    (performed : w.handle.performBy Line.ask w.line (.deploy w.handle.bundle.toList)
      = (result, h', l')) :
    Consistent ⟨h', l'⟩ := by
  cases Handle.performs h.own h.free (by simp) performed with
  | refused e barred => exact h
  | @failed next legal e l' asked h' control bundle e' =>
      have covers := ((Line.asks (by simp [Intent.call]) asked).deploy h.proper h.covers).1
      refine ⟨by rw [Handle.job, control]; exact h.own, control ▸ h.free, bundle ▸ h.proper,
        bundle ▸ covers, fun deployed => ?_⟩
      have state : w.handle.state = .deployed := by rw [← deployed, Handle.state, Handle.state, control]
      have illegal : w.handle.state.next? .deploy = some next := legal
      simp [state, State.next?] at illegal
  | @done next legal reply l' asked h' control bundle =>
      obtain ⟨covers, acknowledged⟩ :=
        (Line.asks (by simp [Intent.call]) asked).deploy h.proper h.covers
      refine ⟨by rw [Handle.job, control]; exact h.own, control ▸ h.free, bundle ▸ h.proper,
        bundle ▸ covers, fun _ => ?_⟩
      rw [bundle]
      exact ⟨frozen, acknowledged reply rfl⟩

/-- A bundle that is frozen is the same bundle. -/
lemma freeze (h : w.Consistent) :
    Consistent ⟨{ w.handle with bundle := w.handle.bundle.freeze }, w.line⟩ :=
  ⟨h.own, h.free, h.proper, h.covers, fun deployed => ⟨rfl, (h.deployed deployed).2⟩⟩

/-- **A bundle that is opened again** has not been deployed. -/
lemma reopen (h : w.Consistent) : Consistent ⟨w.handle.reopen, w.line⟩ := by
  unfold Handle.reopen
  split_ifs with initialized
  · refine ⟨h.own, h.free, h.proper, h.covers, fun deployed => ?_⟩
    exact absurd (initialized.symm.trans deployed) (by decide)
  · exact h

/-- **A graph that is acknowledged** is the one that is stored, beside the resources of the bundle. -/
lemma sendGraph (h : w.Consistent) {graph : Graph} {next : State} {h' : Handle} {l' : Line job}
    (performed : w.handle.performBy Line.ask w.line (.submit graph) = (.ok next, h', l')) :
    Delivered ⟨h', l'⟩ graph := by
  cases Handle.performs h.own h.free (by simp) performed with
  | done legal asked control bundle =>
      have asks := Line.asks (by simp [Intent.call]) asked
      obtain ⟨frozen, rows⟩ := h.deployed (Job.State.eq_of_next_submit legal)
      exact ⟨bundle ▸ frozen, bundle ▸ rows.of_rows (asks.rows (.inr ⟨graph, rfl⟩)), asks.submit⟩

/-- **A submission** keeps this, and when it is acknowledged everything is in place. -/
theorem submit (h : w.Consistent) {graph : Graph} {result : Except JobError State} {h' : Handle}
    {l' : Line job} (submitted : w.handle.submitBy Line.ask w.line graph = (result, h', l')) :
    Consistent ⟨h', l'⟩ ∧ ∀ next, result = .ok next → Delivered ⟨h', l'⟩ graph := by
  unfold Handle.submitBy at submitted
  split at submitted
  · refine ⟨h.plain (.inr ⟨graph, rfl⟩) submitted, ?_⟩
    rintro next rfl
    exact h.sendGraph submitted
  · split at submitted
    · obtain ⟨rfl, rfl, rfl⟩ := by simpa only [Prod.mk.injEq] using submitted
      exact ⟨h, by simp⟩
    · rcases deployed : Handle.performBy Line.ask { w.handle with bundle := w.handle.bundle.freeze }
        w.line (.deploy w.handle.bundle.freeze.toList) with ⟨answer, h'', l''⟩
      have after := h.freeze.deploy rfl deployed
      simp only [deployed] at submitted
      cases answer with
      | error e =>
          obtain ⟨rfl, rfl, rfl⟩ := by simpa only [Prod.mk.injEq] using submitted
          exact ⟨after.reopen, by simp⟩
      | ok next =>
          refine ⟨after.plain (.inr ⟨graph, rfl⟩) submitted, ?_⟩
          rintro next rfl
          exact after.sendGraph submitted

theorem use (h : w.Consistent) (u : Use) : (w.use u).Consistent := by
  cases u with
  | init config => exact h.plain (.inl ⟨config, rfl⟩) rfl
  | add a => exact h.add a
  | submit graph => exact (h.submit rfl).1

theorem run (h : w.Consistent) (uses : List Use) : (w.run uses).Consistent := by
  induction uses generalizing w with
  | nil => exact h
  | cons u uses ih => exact ih (h.use u)

/-- **A graph that arrives** is accepted, once the job has been deployed and if it finds everything. -/
lemma sends (h : w.Consistent) (state : w.handle.state = .deployed)
    (up : w.handle.control.poolUp = true) {r : Record}
    (found : w.line.cluster.findRecord job = .ok r) (status : r.status = .deployed)
    (arrives : w.line.next.fate = .arrives) {graph : Graph}
    (complete : ∀ name ∈ graph.references.names, (w.handle.bundle.find? name).isSome = true) :
    ∃ h' l', w.handle.performBy Line.ask w.line (.submit graph) = (.ok .submitted, h', l') := by
  have apart := w.line.next.apart w.line.cluster
  have rows := (h.deployed state).2.of_rows apart.resource
  have still := (Cluster.findRecord_of_sameRows apart).trans found
  have asked := Line.ask_of_arrives (.submit graph) (by simp) arrives
  simp only [Call.actions, Cluster.plan_submit_of_matches h.proper rows still status complete] at asked
  obtain ⟨_, h', performed, -, rfl, -⟩ :=
    Handle.exists_asked (i := .submit graph) state rfl up h.own h.free (by simp) asked
  exact ⟨h', _, performed⟩

end Consistent

/-! ## Submissions -/

/-- **When a submission is acknowledged**, after whatever has been done with the handle before and whatever
has become of the calls, the bundle is frozen, its resources are those that are stored for the job, each under
its name, and the stored graph is the one of this submission. -/
theorem submission_delivers {h₀ : Handle} (made : Handle.new job = .ok h₀) (line : Line job)
    (unused : Store.SameRows job .empty line.cluster.store) (uses : List Use) (graph : Graph)
    {next : State} {h : Handle} {l : Line job}
    (submitted : (run ⟨h₀, line⟩ uses).handle.submitBy Line.ask (run ⟨h₀, line⟩ uses).line graph
      = (.ok next, h, l)) :
    h.bundle.frozen = true
      ∧ l.cluster.store.listResources job = .ok h.bundle.toList
      ∧ (h.bundle.toList.map Resource.name).Nodup
      ∧ (∀ name, l.cluster.store.getResource job name = .ok (h.bundle.find? name))
      ∧ l.cluster.store.graphs.find? job = some (.of graph.toJson)
      ∧ (graph.body.Proper → graph.Readable → l.cluster.store.getGraph job = .ok (some graph)) := by
  have consistent := (Consistent.start made unused).run uses
  obtain ⟨after, acknowledged⟩ := consistent.submit submitted
  obtain ⟨frozen, rows, stored⟩ := acknowledged next rfl
  refine ⟨frozen, rows.listResources after.proper, ?_, rows.getResource, stored, fun proper readable => ?_⟩
  · have ordered := (Bundle.lists_toList after.proper).ordered.imp bytes_lt_iff.mp
    exact List.pairwise_map.mpr (ordered.imp ne_of_lt)
  · have read := (Graph.decode_row_iff proper).mpr readable
    simp only [Store.getGraph, Store.get, stored, read, Except.map]

/-! ## Retries -/

/-- **A job that has been registered**, and of whose deployment nothing has been heard. -/
structure Ready (w : Caller job) : Prop where
  consistent : w.Consistent
  state : w.handle.state = .initialized
  up : w.handle.control.poolUp = true
  deployable : w.line.cluster.Deployable job

namespace Ready

variable {w : Caller job}

/-- **A registration that arrives.** -/
lemma init (h : w.Consistent) (state : w.handle.state = .unstarted)
    (up : w.handle.control.poolUp = true) (valid : Job.isName job = true)
    (missing : w.line.cluster.Lacks job) (arrives : w.line.next.fate = .arrives) {config : JobConfig}
    (fits : config.Fits) :
    (w.use (.init config)).Ready ∧ (w.use (.init config)).line.passages = w.line.passages.tail := by
  have after := h.use (.init config)
  have asked := Line.ask_of_arrives (.register config) (by simp) arrives
  have still : (w.line.next.meanwhile w.line.cluster).Lacks job := by
    have rows := w.line.next.apart w.line.cluster
    simpa only [Cluster.Lacks, Store.getJob, Store.get, rows.record] using missing
  simp only [Call.actions, Cluster.plan_register_of_lacks still valid] at asked
  obtain ⟨_, h', performed, -, rfl, control⟩ :=
    Handle.exists_asked (i := .init config) state rfl up h.own h.free (by simp) asked
  have used : w.use (.init config) = ⟨h', (w.line.next.meanwhile w.line.cluster).after
      [.putJob (Record.new job config w.line.next.now.toNat)], w.line.passages.tail⟩ := by
    simp only [use, performed]
  rw [used] at after ⊢
  have found := (w.line.next.meanwhile w.line.cluster).findRecord_after_register valid fits w.line.next.now
  exact ⟨⟨after, by rw [Handle.state, control], control ▸ up, _, found, rfl,
    ⟨fits, w.line.next.now.toNat_lt, w.line.next.now.toNat_lt⟩, .inl rfl⟩, rfl⟩

lemma add (h : w.Ready) (a : Addition) : (w.use (.add a)).Ready := by
  have consistent := h.consistent.use (.add a)
  have control : (w.use (.add a)).handle.control = w.handle.control := by
    simp only [use, Handle.addTo]
    split <;> rfl
  exact ⟨consistent, by rw [Handle.state, control]; exact h.state, control ▸ h.up, h.deployable⟩

/-- The first half of a submission. -/
lemma submitBy_eq (h : w.Ready) (graph : Graph) :
    w.handle.submitBy Line.ask w.line graph
      = match Handle.performBy Line.ask { w.handle with bundle := w.handle.bundle.freeze } w.line
          (.deploy w.handle.bundle.freeze.toList) with
        | (.error e, h, s) => (.error e, h.reopen, s)
        | (.ok _, h, s) => h.performBy Line.ask s (.submit graph) := by
  have early : w.handle.state ≠ .deployed := by simp [h.state]
  have legal : w.handle.control.check .deploy = .ok .deployed := by
    simp [Control.check, show w.handle.control.state = .initialized from h.state, State.next?]
  simp only [Handle.submitBy, if_neg early, legal]
  rcases Handle.performBy Line.ask { w.handle with bundle := w.handle.bundle.freeze } w.line
    (.deploy w.handle.bundle.freeze.toList) with ⟨_ | _, _, _⟩ <;> rfl

/-- **A deployment of which nothing is heard** changes nothing about this. -/
lemma held_up (h : w.Ready) (fails : w.line.next.fate ≠ .arrives) (graph : Graph) :
    (w.use (.submit graph)).Ready ∧ (w.use (.submit graph)).line.passages = w.line.passages.tail
      ∧ ∀ name, (w.use (.submit graph)).handle.bundle.find? name = w.handle.bundle.find? name := by
  have after := h.consistent.use (.submit graph)
  obtain ⟨e, c, asked⟩ := Line.exists_ask_of_fails (.deploy w.handle.bundle.freeze.toList) fails
  have able := (Line.asks (by simp) asked).deployable h.deployable
  have frozen := h.consistent.freeze
  have state : Handle.state { w.handle with bundle := w.handle.bundle.freeze } = .initialized := h.state
  obtain ⟨_, h', performed, bundle, ⟨e', rfl⟩, control⟩ := Handle.exists_asked
    (i := .deploy w.handle.bundle.freeze.toList) state rfl h.up frozen.own frozen.free (by simp) asked
  have early : h'.state = .initialized := by
    rw [Handle.state, control]
    exact h.state
  have reopened : h'.reopen = { h' with bundle := h'.bundle.thaw } := if_pos early
  have used : w.use (.submit graph) = ⟨h'.reopen, ⟨c, w.line.passages.tail⟩⟩ := by
    simp only [use, h.submitBy_eq, performed]
  rw [used, reopened] at after ⊢
  refine ⟨⟨after, early, ?_, able⟩, rfl, fun name => ?_⟩
  · exact control ▸ h.up
  · show h'.bundle.find? name = _
    rw [bundle]
    rfl

/-- **A deployment that arrives.** -/
lemma deploys (h : w.Ready) (arrives : w.line.next.fate = .arrives) :
    ∃ h' l', Handle.performBy Line.ask { w.handle with bundle := w.handle.bundle.freeze } w.line
        (.deploy w.handle.bundle.freeze.toList) = (.ok .deployed, h', l')
      ∧ h'.state = .deployed ∧ h'.control.poolUp = true ∧ l'.passages = w.line.passages.tail
      ∧ (∀ name, h'.bundle.find? name = w.handle.bundle.find? name)
      ∧ ∃ r, l'.cluster.findRecord job = .ok r ∧ r.status = .deployed := by
  have apart := w.line.next.apart w.line.cluster
  obtain ⟨r, found, name, fits, status⟩ := h.deployable.of_sameRows apart
  have frozen := h.consistent.freeze
  have covers := frozen.covers.of_rows apart.resource
  have asked := Line.ask_of_arrives (.deploy w.handle.bundle.freeze.toList) (by simp) arrives
  simp only [Call.actions, Cluster.plan_deploy_of_covers frozen.proper covers found status] at asked
  have state : Handle.state { w.handle with bundle := w.handle.bundle.freeze } = .initialized := h.state
  obtain ⟨_, h', performed, bundle, rfl, control⟩ := Handle.exists_asked
    (i := .deploy w.handle.bundle.freeze.toList) state rfl h.up frozen.own frozen.free (by simp) asked
  have valid := Cluster.isName_of_findRecord found
  refine ⟨h', _, performed, by rw [Handle.state, control], control ▸ h.up, rfl, fun name => ?_, _,
    Cluster.findRecord_deployed valid name fits _ _, rfl⟩
  rw [bundle]
  rfl

/-- **With nothing in the way** a submission is acknowledged, if the graph finds everything in the bundle. -/
lemma goes_through (h : w.Ready) (clear : ∀ p ∈ w.line.passages, p.fate = .arrives) {graph : Graph}
    (complete : ∀ name ∈ graph.references.names, (w.handle.bundle.find? name).isSome = true) :
    ∃ h' l', w.handle.submitBy Line.ask w.line graph = (.ok .submitted, h', l') := by
  obtain ⟨h', l', deployed, state, up, passages, same, r, found, status⟩ :=
    h.deploys (Line.next_of_all clear)
  have after := h.consistent.freeze.deploy rfl deployed
  have arrives : l'.next.fate = .arrives := Line.next_of_all fun p member =>
    clear p (List.mem_of_mem_tail (passages ▸ member))
  obtain ⟨h'', l'', sent⟩ := after.sends state up found status arrives fun name member =>
    same name ▸ complete name member
  exact ⟨h'', l'', by rw [h.submitBy_eq, deployed]; exact sent⟩

/-- **However often** a deployment is lost, or its acknowledgment, one more submission puts it right. -/
theorem retries (h : w.Ready) {graph : Graph}
    (complete : ∀ name ∈ graph.references.names, (w.handle.bundle.find? name).isSome = true) (n : ℕ)
    (long : n ≤ w.line.passages.length)
    (fails : ∀ p ∈ w.line.passages.take n, p.fate ≠ .arrives)
    (clear : ∀ p ∈ w.line.passages.drop n, p.fate = .arrives) :
    ∃ h' l', (w.run (.replicate n (.submit graph))).handle.submitBy Line.ask
      (w.run (.replicate n (.submit graph))).line graph = (.ok .submitted, h', l') := by
  induction n generalizing w with
  | zero => exact h.goes_through clear complete
  | succ n ih =>
      obtain ⟨own, c, _ | ⟨p, rest⟩⟩ := w
      · simp at long
      · obtain ⟨ready, passages, resources⟩ := h.held_up (fails p (by simp)) graph
        refine ih ready (fun name member => resources name ▸ complete name member) ?_ ?_ ?_ <;>
          rw [passages]
        · simpa using long
        · exact fun q member => fails q (List.mem_cons_of_mem p member)
        · exact clear

end Ready

/-! ## A submission that is repeated -/

/-- The registration arrives, and of the first deployment nothing is heard. -/
def shaky : Line "sums" :=
  ⟨.ofStore .empty acknowledge,
    [.straight "sums" 1 .arrives, .straight "sums" 2 (.unacknowledged (.transport "reset"))]⟩

/-- A job is registered, gets a resource, is submitted in vain, and gets another resource. -/
def perseverance : List Use :=
  [.init Cluster.plainConfig, .add (.codeBytes "sums.core" [1, 2]), .submit (.new .null),
    .add (.codeBytes "sums.more" [3])]

/-- The submission that is repeated with a larger bundle is acknowledged. -/
theorem perseverance_delivers :
    ∃ h₀ h l, Handle.new "sums" = .ok h₀ ∧ Store.SameRows "sums" .empty shaky.cluster.store
      ∧ (run ⟨h₀, shaky⟩ perseverance).handle.submitBy Line.ask (run ⟨h₀, shaky⟩ perseverance).line
        (.new .null) = (.ok .submitted, h, l)
      ∧ h.bundle.frozen = true
      ∧ l.cluster.store.listResources "sums" = .ok h.bundle.toList
      ∧ (h.bundle.toList.map Resource.name).Nodup
      ∧ (∀ name, l.cluster.store.getResource "sums" name = .ok (h.bundle.find? name))
      ∧ l.cluster.store.graphs.find? "sums" = some (.of (Graph.new .null).toJson)
      ∧ ((Graph.new .null).body.Proper → (Graph.new .null).Readable →
        l.cluster.store.getGraph "sums" = .ok (some (.new .null))) := by
  have valid : Job.isName "sums" = true := by decide
  have made : Handle.new "sums" = .ok (.ofName "sums") := if_pos valid
  have unused : Store.SameRows "sums" .empty shaky.cluster.store := .refl "sums" .empty
  obtain ⟨registered, left⟩ := Ready.init (.start made unused) rfl rfl valid rfl rfl
    Cluster.plainConfig_fits
  obtain ⟨w, here⟩ : ∃ w, use ⟨.ofName "sums", shaky⟩ (.init Cluster.plainConfig) = w := ⟨_, rfl⟩
  have steps : run ⟨.ofName "sums", shaky⟩ perseverance = ((w.use (.add (.codeBytes "sums.core" [1, 2]))).use
      (.submit (.new .null))).use (.add (.codeBytes "sums.more" [3])) := by
    rw [← here]
    rfl
  rw [here] at registered left
  have fails : w.line.next.fate ≠ .arrives := by
    rw [Line.next, left]
    exact Fate.noConfusion
  obtain ⟨ready, passages, -⟩ :=
    (registered.add (.codeBytes "sums.core" [1, 2])).held_up fails (.new .null)
  have clear := passages.trans (congrArg List.tail left)
  have complete : ∀ b : Bundle, ∀ name ∈ (Graph.new .null).references.names, (b.find? name).isSome = true :=
    fun b name member => absurd member List.not_mem_nil
  obtain ⟨h, l, submitted⟩ := (ready.add (.codeBytes "sums.more" [3])).goes_through
    (fun p member => absurd (clear ▸ member) List.not_mem_nil) (complete _)
  rw [← steps] at submitted
  exact ⟨_, h, l, made, unused, submitted, submission_delivers made shaky unused perseverance _ submitted⟩

end Caller

end ControlPlane
