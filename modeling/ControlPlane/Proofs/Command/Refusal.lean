import Mathlib
import ControlPlane.Command.Submit
import ControlPlane.Proofs.Cluster.Frame
import ControlPlane.Proofs.Gateway.Transport

/-!
# A submission under a name that is taken

A cluster registers a job anew only as long as nothing has been deployed for it, so a submission under
the name of a job that has come further is refused at its first call.  But whatever came before, a
submission ends with the destruction of its job; the cluster knows jobs by their names only, and a
handle that has registered nothing may still destroy.

* `Cluster.Taken` — a name whose job has come further than its registration.
* `Link.register_taken`, `Link.issue_destroy` — the two calls that reach the cluster, in the same
  process or through a gateway.
* `Submission.run_taken` — a submission that gets as far as the cluster.
* `Submission.run_taken_iff` — the statement: it always fails, and it leaves the job alone exactly
  when its own resources cannot be staged.
-/

namespace ControlPlane

/-! ## The cluster -/

namespace Cluster

variable {c : Cluster} {job : String} {r : Record}

/-- The job under a name has come further than its registration. -/
structure Taken (c : Cluster) (job : String) (r : Record) : Prop where
  stored : c.Stores job r
  past : r.status ≠ .registered

/-- A name that is taken is not registered, and nothing changes. -/
lemma Taken.plan_register (taken : c.Taken job r) (valid : Job.isName job = true)
    (config : JobConfig) (now : ℕ) :
    Operation.plan c (Operation.register job config now)
      = (.error (.jobAlreadyExists job), []) := by
  rw [Operation.plan_register, if_pos valid, show c.store.getJob job = _ from taken.stored]
  simp only [taken.past, if_false]

/-- The cluster without anything of a job: first the slot goes, then what is stored. -/
def without (c : Cluster) (job : String) : Cluster := c.after [.removeSlot job, .purge job]

section Without

variable (c : Cluster) (job : String)

lemma without_store : (c.without job).store = (c.store.purge job).2 := by
  simp [without, Action.perform]

lemma without_lacks : (c.without job).Lacks job := by
  unfold Lacks
  rw [without_store, Store.getJob_purge, if_pos rfl]

/-- **Nothing of a job is found**: no record, no resource, no graph, no counters and no slot. -/
lemma without_clears :
    (c.without job).Lacks job ∧ (c.without job).store.listResources job = .ok [] ∧
      (c.without job).store.getGraph job = .ok none ∧
      (c.without job).store.getAccumulators job = .ok none ∧
      (c.without job).slots.find? job = none := by
  refine ⟨c.without_lacks job, ?_, ?_, ?_, ?_⟩
  · rw [without_store]
    have none_owned : (c.store.purge job).2.resources.filter (Store.isOwned job) = .empty := by
      refine Table.ext_find? fun key => ?_
      rw [Table.find?_filter]
      split_ifs with own
      · simp [Store.purge, own]
      · simp
    rw [Store.listResources, none_owned]
    rfl
  · simp [without_store, Store.getGraph, Store.get, Store.purge]
  · simp [without_store, Store.getAccumulators, Store.get, Store.purge]
  · simp [without, Action.perform_find?]

/-- The task of the execution in the slot is gone, unless it has resolved already. -/
lemma without_tasks {slot : RunSlot} (found : c.slots.find? job = some slot) :
    ∀ t ∈ (c.without job).tasks, t.execution = slot.execution → RunTask.isWorking t = false := by
  intro t member same
  have kept : t ∈ (c.removeSlot job).tasks := by
    simpa [without, Action.perform_tasks, Action.perform] using member
  simp only [removeSlot, found, List.mem_filter] at kept
  simpa [same] using kept.2

end Without

end Cluster

/-! ## Through a gateway -/

namespace Remote

open Gateway

variable {job : String}

/-- A response that is no success is the failure of its call, whatever its body says. -/
lemma decode_of_not_success {status : ℕ} (refused : Http.isSuccess status = false) (job : String)
    (call : Call) (text : String) : ∃ e, decode job call status text = .error e := by
  have envelope : ∀ {α} (d : Json.Decoder α), ∃ e, envelopeOf d status text = .error e := by
    intro α d
    unfold envelopeOf
    rw [refused]
    cases Json.decode (Envelope.decoder d) text.toList <;> simp
  obtain ⟨e, value⟩ := envelope Json.Decoder.value
  obtain ⟨e', outcome⟩ := envelope Job.Outcome.decoder
  obtain ⟨e'', counters⟩ := envelope Accumulators.decoder
  cases call <;> simp [decode, value, outcome, counters, bind, Except.bind]

/-- A registration is understood, or its settings are refused. -/
lemma plan_register (valid : Job.isName job = true) (address : String) (config : JobConfig) :
    (∃ received, Gateway.plan (requestFor address job (.register config))
        = .ok (.register job received))
      ∨ ∃ status, Http.isSuccess status = false
        ∧ Gateway.plan (requestFor address job (.register config)) = .error status := by
  have path : (requestFor address job (.register config)).target = jobPath job := rfl
  have method : (requestFor address job (.register config)).method = "POST" := rfl
  simp only [Gateway.plan, path, segments_jobPath valid, Option.bind_some, route_job valid, planOf,
    method, if_true, nameOf, Http.decodeSegment_of_isName valid, bind, Except.bind]
  unfold bodyOf
  split_ifs
  · exact .inr ⟨unsupportedMediaType, rfl, rfl⟩
  · exact .inr ⟨payloadTooLarge, rfl, rfl⟩
  · rcases Json.decode JobConfig.decoder (requestFor address job (.register config)).body.toList
      with fault | received
    · refine .inr ⟨statusOfFault fault, ?_, rfl⟩
      cases fault <;> rfl
    · exact .inl ⟨received, rfl⟩

/-- A refusal by the gateway or by the cluster behind it is a failure of the registration. -/
lemma register_taken {c : Cluster} {r : Record} (taken : c.Taken job r)
    (valid : Job.isName job = true) (address : String) (config : JobConfig) (now : ℕ) :
    ∃ o e, exchange c now address job (.register config) = (o, c) ∧ o.poll c = some (.error e) := by
  rw [exchange_eq valid]
  obtain ⟨received, understood⟩ | ⟨status, refused, not_understood⟩ :=
    plan_register valid address config
  · have refusal : Program.plan c (Operation.register job received now).run
        = (.error (.jobAlreadyExists job), []) := taken.plan_register valid received now
    simp only [Gateway.handle, understood, Gateway.carryOut, Program.run_eq_plan, refusal,
      Cluster.after_nil]
    obtain ⟨e, failure⟩ := decode_of_not_success
      (show Http.isSuccess (ClusterError.jobAlreadyExists job).status = false from rfl) job
      (.register config) _
    exact ⟨_, e, rfl, congrArg some failure⟩
  · simp only [Gateway.handle, not_understood]
    obtain ⟨e, failure⟩ := decode_of_not_success refused job (.register config) _
    exact ⟨_, e, rfl, congrArg some failure⟩

lemma plan_destroy (valid : Job.isName job = true) (address : String) :
    Gateway.plan (requestFor address job .destroy) = .ok (.destroy job) :=
  plan_requestFor valid address (show Call.destroy.Survives from trivial) (Nat.zero_le _)

end Remote

/-! ## Through any link -/

namespace Link

variable {c : Cluster} {job : String} {r : Record} {link : Link}

/-- **A name that is taken is refused**, in the same process or through a gateway. -/
lemma register_taken (reaches : link.answer? = none) (taken : c.Taken job r)
    (valid : Job.isName job = true) (config : JobConfig) (now : ℕ) :
    ∃ o e, link.issue c now job (.register config) = (o, c) ∧ o.poll c = some (.error e) := by
  have plan := taken.plan_register valid
  cases link with
  | inProcess =>
      have answer := c.issue_answer now job (show Call.register config ≠ .await by simp)
      have same := c.issue_eq now job (.register config)
      rw [Call.operation, Operation.plan_map, plan] at answer
      rw [Call.actions_eq] at same
      simp only [plan, Cluster.after_nil] at same
      refine ⟨_, .jobAlreadyExists job, Prod.ext rfl same, ?_⟩
      show (c.issue now job (.register config)).1.poll c = _
      rw [answer]
      rfl
  | gateway address =>
      obtain ⟨o, e, sent, failure⟩ := Remote.register_taken taken valid address config now
      refine ⟨.sent o, e, ?_, failure⟩
      simp only [issue, sent]
  | broken address cause => simp [answer?] at reaches

/-- **A destruction** leaves nothing of the job, in the same process or through a gateway. -/
lemma issue_destroy (reaches : link.answer? = none) (valid : Job.isName job = true) (now : ℕ) :
    (link.issue c now job .destroy).2 = c.without job := by
  have plan := Operation.plan_destroy c job
  rw [if_pos valid] at plan
  cases link with
  | inProcess =>
      refine (c.issue_eq now job .destroy).trans ?_
      rw [Call.actions_destroy c now valid]
      rfl
  | gateway address =>
      have handled : Gateway.plan _ = _ := Remote.plan_destroy valid address
      simp only [issue, Remote.exchange_eq valid, Gateway.handle, handled, Gateway.carryOut,
        Program.run_eq_plan]
      exact congrArg (fun p => c.after p.2) plan
  | broken address cause => simp [answer?] at reaches

end Link

/-! ## The handle -/

namespace Handle

variable {h : Handle} {s s' : Site} {job : String}

lemma addTo_control {α : Type} (h : Handle) (add : Bundle → Except BundleError (α × Bundle)) :
    (h.addTo add).2.control = h.control := by
  unfold addTo
  split <;> rfl

/-- A handle that has done nothing passes on why it is refused, and has still done nothing. -/
lemma init_refused (fresh : h.control = .new job) {config : JobConfig} {o : Ongoing}
    {e : ClusterError} (issued : s.issue job (.register config) = (o, s'))
    (refused : o.poll s'.cluster = some (.error e)) :
    h.init s config = (.error (.control job .init (.cluster e)), h, s') := by
  obtain ⟨control, bundle, watch⟩ := h
  obtain rfl : control = .new job := fresh
  have asked : s.ask job (.register config) = (.error e, s') := by
    simp [Site.ask, issued, refused]
  simp [init, perform, Handle.job, Control.new, Control.enter, Control.acquire, Control.isDone,
    Control.check, Intent.event, Job.State.next?, Intent.call, asked, Except.map, Control.answer,
    Intent.failure]

/-- A handle that has done nothing may destroy. -/
lemma destroy_site (fresh : h.control = .new job) (s : Site) :
    (h.destroy s).2.2 = (s.issue job .destroy).2 := by
  obtain ⟨control, bundle, watch⟩ := h
  obtain rfl : control = .new job := fresh
  simp [destroy, perform, Handle.job, Control.new, Control.enter, Control.acquire, Control.isDone,
    Control.check, Intent.event, Job.State.next?, Intent.call, Site.ask]

end Handle

/-! ## The submission -/

namespace Command.Submission

variable (a : Submission) (files : FileTree) (config : ClientConfig) (graph : Graph) {link : Link}
  {c : Cluster} {r : Record}

lemma addEach_control {add : String → Bundle → Except BundleError (Bool × Bundle)}
    {locators : List String} {h staged : Handle} (done : addEach h add locators = .ok staged) :
    staged.control = h.control := by
  induction locators generalizing h with
  | nil =>
      obtain rfl : h = staged := by simpa [addEach] using done
      rfl
  | cons locator rest ih =>
      have same := h.addTo_control (add locator)
      rw [addEach] at done
      rcases added : h.addTo (add locator) with ⟨e | _, next⟩
      · simp [added] at done
      · simp only [added] at done same
        rw [ih done, same]

/-- Staging has nothing to do with the state. -/
lemma stage_control {h staged : Handle} (done : a.stage files h = .ok staged) :
    staged.control = h.control := by
  have code := h.addTo_control fun b => b.addCode ⟨a.codeRoot.toList⟩ files a.code
  rw [stage] at done
  rcases added : h.addTo fun b => b.addCode ⟨a.codeRoot.toList⟩ files a.code with ⟨e | _, first⟩
  · simp [added] at done
  · simp only [added, bind, Except.bind] at done code
    rcases archived : addEach first
      (fun locator b => b.addLocated files locator none .archive) a.archives with e | second
    · simp [archived] at done
    · rw [archived] at done
      rw [addEach_control done, addEach_control archived, code]

/-- **A submission that gets as far as the cluster** is refused at its first call, and then destroys
the job that has the name. -/
lemma run_taken (reaches : link.answer? = none) (taken : c.Taken a.name r) (now : ℕ) {h : Handle}
    (staged : (Handle.new a.name).bind (a.stage files) = .ok h) :
    ∃ e, a.run files config graph ⟨⟨link, []⟩, c, now⟩
      = (.error (.control a.name .init (.cluster e)), ⟨⟨link, []⟩, c.without a.name, now⟩) := by
  have valid : Job.isName a.name = true := by
    by_contra invalid
    simp [Handle.new, invalid, Except.bind] at staged
  have fresh : h.control = .new a.name := by
    rw [Handle.new, if_pos valid] at staged
    exact a.stage_control files staged
  obtain ⟨o, e, issued, refused⟩ :=
    Link.register_taken reaches taken valid (config.resolve a.name) now
  have asked : Site.issue ⟨⟨link, []⟩, c, now⟩ a.name (.register (config.resolve a.name))
      = (o, ⟨⟨link, []⟩, c, now⟩) := by
    simp [Site.issue, FaultyLink.issue, Faults.next, issued]
  have ends : Site.issue ⟨⟨link, []⟩, c, now⟩ a.name .destroy
      = ((link.issue c now a.name .destroy).1, ⟨⟨link, []⟩, c.without a.name, now⟩) := by
    simp [Site.issue, FaultyLink.issue, Faults.next, Link.issue_destroy reaches valid now]
  refine ⟨e, ?_⟩
  simp only [run, staged, runToCompletion, Handle.init_refused fresh asked refused]
  rw [Handle.destroy_site fresh, ends]

/-- **A submission under a name that is taken**, in the same process as the cluster or through a
gateway.  It always ends with an error.  It leaves the cluster as it was exactly when its handle
cannot be made or its own resources cannot be staged.  When they can, the refusal of the
registration is what it reports, and nothing is found any more of the job that had the name: no
record, no resource, no graph, no counters, no slot, and no task at work. -/
theorem run_taken_iff (reaches : link.answer? = none) (taken : c.Taken a.name r) (now : ℕ) :
    let staged := (Handle.new a.name).bind (a.stage files)
    let ending := a.run files config graph ⟨⟨link, []⟩, c, now⟩
    let d := ending.2.cluster
    (∃ e, ending.1 = .error e) ∧
    (d = c ↔ ∃ e, staged = .error e) ∧
    ((∃ h, staged = .ok h) →
      (∃ e, ending.1 = .error (.control a.name .init (.cluster e))) ∧
      d.Lacks a.name ∧ d.store.listResources a.name = .ok [] ∧
      d.store.getGraph a.name = .ok none ∧ d.store.getAccumulators a.name = .ok none ∧
      d.slots.find? a.name = none ∧
      ∀ slot, c.slots.find? a.name = some slot →
        ∀ t ∈ d.tasks, t.execution = slot.execution → Cluster.RunTask.isWorking t = false) := by
  intro staged ending d
  rcases outcome : staged with e | h
  · have same : ending = (.error e, ⟨⟨link, []⟩, c, now⟩) := by
      simp only [ending, run, show (Handle.new a.name).bind (a.stage files) = _ from outcome]
    refine ⟨⟨e, by rw [same]⟩, ?_, by simp⟩
    simp [d, same]
  · obtain ⟨e, eq⟩ := a.run_taken files config graph reaches taken now outcome
    have gone : d = c.without a.name := congrArg (fun ending => ending.2.cluster) eq
    have clears := c.without_clears a.name
    have changed : d ≠ c := by
      intro same
      rw [same] at gone
      exact (gone ▸ clears.1 : c.Lacks a.name).not_stores taken.stored
    have reported : ending.1 = .error (.control a.name .init (.cluster e)) := congrArg Prod.fst eq
    refine ⟨⟨_, reported⟩, by simp [changed], fun _ => ?_⟩
    rw [gone]
    exact ⟨⟨e, reported⟩, clears.1, clears.2.1, clears.2.2.1, clears.2.2.2.1, clears.2.2.2.2,
      fun slot found => c.without_tasks a.name found⟩

/-- A job that runs is lost to a submission under its name, with nothing to stage. -/
theorem running_job_is_lost :
    let r : Record := ⟨"a", ⟨4, 256, .empty⟩, .running, true, none, 0, 0⟩
    let g : Graph := .new .null
    let c := (Cluster.ofStore (Store.empty.putJob r) acknowledge).launch ⟨"a", r.config, g, []⟩
    let a : Submission := ⟨"gridjob.toml", "a", "graph.json", ".", [], [], []⟩
    let d := (a.run ⟨[], [], []⟩ .standard g ⟨⟨.inProcess, []⟩, c, 0⟩).2.cluster
    c.Taken "a" r ∧ c.activeJobs = 1 ∧ d ≠ c ∧ d.Lacks "a" ∧ d.slots.find? "a" = none := by
  intro r g c a d
  have fits : r.Fits := ⟨⟨by decide, by decide⟩, by decide, by decide⟩
  have stored : c.Stores "a" r := Store.empty.getJob_putJob fits "a"
  have taken : c.Taken "a" r := ⟨stored, by decide⟩
  have staged : ∃ h, (Handle.new a.name).bind (a.stage ⟨[], [], []⟩) = .ok h := by
    refine ⟨Handle.ofName "a", ?_⟩
    rw [Handle.new, if_pos (by decide)]
    rfl
  have lost := a.run_taken_iff ⟨[], [], []⟩ .standard g
    (show Link.answer? .inProcess = none from rfl) taken 0
  obtain ⟨-, alone, gone⟩ := lost
  refine ⟨taken, by rfl, ?_, (gone staged).2.1, (gone staged).2.2.2.2.2.1⟩
  intro same
  obtain ⟨e, failed⟩ := alone.mp same
  obtain ⟨h, done⟩ := staged
  simp [failed] at done

end Command.Submission

end ControlPlane
