import Mathlib
import ControlPlane.Proofs.Cluster.Frame
import ControlPlane.Proofs.Registry.Life

/-!
# What a call writes, and what a publication writes

* `Cluster.Effect` — what a client's call writes, in eight cases; `Request.effect` says that there
  are no others.
* `Cluster.Sound` — every job has a record whose fields agree, or none.
* `Cluster.outcomeSteps` — the steps of a publication that finds a slot and a record.
-/

namespace ControlPlane

namespace Cluster

/-- **What a client's call on a job writes.** -/
inductive Effect (c : Cluster) (job : String) : Call → List Action → Prop where
  | nothing {call : Call} : c.Effect job call []
  | create {config : JobConfig} (missing : c.Lacks job) (fits : config.Fits) (now : UInt64) :
      c.Effect job (.register config) [.putJob (Record.new job config now.toNat)]
  | configure {r : Record} {config : JobConfig} (stored : c.Stores job r)
      (status : r.status = .registered) (fits : config.Fits) (now : UInt64) :
      c.Effect job (.register config) [.putJob { r with config := config, updatedAt := now.toNat }]
  | deploy {r : Record} (valid : Job.isName job = true) (stored : c.Stores job r)
      (status : r.status = .registered ∨ r.status = .deployed) (rs : List Resource)
      (now : UInt64) :
      c.Effect job (.deploy rs)
        [.putResources job rs, .putJob (r.advance .deployed now.toNat)]
  | submit {r : Record} (stored : c.Stores job r) (status : r.status = .deployed) (graph : Graph)
      (now : UInt64) :
      c.Effect job (.submit graph) [.putGraph job graph, .putJob (r.advance .submitted now.toNat)]
  | start {r : Record} (stored : c.Stores job r) (status : r.status = .submitted)
      (fresh : r.executionStarted = false) (graph : Graph) (resources : List Resource)
      (now : UInt64) :
      c.Effect job .start
        [.putJob ({ r with executionStarted := true }.advance .running now.toNat),
          .launch ⟨job, r.config, graph, resources⟩]
  | interrupt {slot : RunSlot} (found : c.slots.find? job = some slot)
      (unfinished : slot.outcome = none) : c.Effect job .interrupt [.requestInterrupt job]
  | destroy (valid : Job.isName job = true) : c.Effect job .destroy [.removeSlot job, .purge job]

lemma stores_of_findRecord {c : Cluster} {job : String} {r : Record}
    (h : c.findRecord job = .ok r) : c.Stores job r := by
  unfold findRecord at h
  split_ifs at h
  unfold Stores
  rcases stored : c.store.getJob job with e | _ | s <;> simp_all

lemma isName_of_findRecord {c : Cluster} {job : String} {r : Record}
    (h : c.findRecord job = .ok r) : Job.isName job = true := by
  unfold findRecord at h
  split_ifs at h with valid
  exact valid

end Cluster

open Operation in
/-- Every call has one of the effects. -/
theorem Request.effect (q : Request) (c : Cluster) : c.Effect q.job q.call (q.actions c) := by
  obtain ⟨job, call, now, fits⟩ := q
  rw [Request.actions, Call.actions_eq]
  cases call with
  | register config =>
      simp only [plan_register]
      split_ifs
      · rcases stored : c.store.getJob job with e | _ | r
        · exact .nothing
        · exact .create stored fits now
        · simp only
          split_ifs with status
          · exact .configure stored status fits now
          · exact .nothing
      · exact .nothing
  | deploy rs =>
      simp only [plan_deploy]
      rcases found : c.findRecord job with e | r
      · exact .nothing
      · simp only
        split_ifs with status
        · rcases (plan c (checkResources job rs)).1 with e | _
          · exact .nothing
          · exact .deploy (Cluster.isName_of_findRecord found) (Cluster.stores_of_findRecord found)
              status rs now
        · exact .nothing
  | submit graph =>
      simp only [plan_submit]
      rcases found : c.findRecord job with e | r
      · exact .nothing
      · simp only
        split_ifs with status
        · rcases c.store.listResources job with e | rs
          · exact .nothing
          · simp only
            split_ifs
            · exact .submit (Cluster.stores_of_findRecord found) status graph now
            · exact .nothing
        · exact .nothing
  | start =>
      simp only [plan_start]
      rcases found : c.findRecord job with e | r
      · exact .nothing
      · simp only
        split_ifs with started status
        · exact .nothing
        · rcases c.store.getGraph job with e | _ | graph
          · exact .nothing
          · exact .nothing
          · rcases c.store.listResources job with e | rs
            · exact .nothing
            · exact .start (Cluster.stores_of_findRecord found) status (by simpa using started)
                graph rs now
        · exact .nothing
  | interrupt =>
      simp only [plan_interrupt]
      rcases found : c.slots.find? job with _ | slot
      · exact .nothing
      · simp only
        split_ifs with finished
        · exact .nothing
        · exact .interrupt found (by simpa [RunSlot.isFinished] using finished)
  | destroy =>
      simp only [plan_destroy]
      split_ifs with valid
      · exact .destroy valid
      · exact .nothing
  | await => exact .nothing
  | accumulators => exact .nothing

/-! ## Records -/

namespace Cluster

/-- Every job has a sound record or none. -/
def Sound (c : Cluster) : Prop := ∀ job, c.Lacks job ∨ ∃ r, c.Stores job r ∧ r.Sound job

lemma Sound.record {c : Cluster} (h : c.Sound) {job : String} {r : Record} (stored : c.Stores job r) :
    r.Sound job := by
  rcases h job with missing | ⟨s, stored', sound⟩
  · exact absurd stored missing.not_stores
  · exact stored.unique stored' ▸ sound

/-! ## Publications -/

/-- The steps by which a task stores its outcome in a record and publishes it. -/
def outcomeSteps (job : String) (r : Record) (outcome : Job.Outcome) (a : Accumulators)
    (now : ℕ) : List Action :=
  [.putJob (r.finish outcome now), .putAccumulators job a, .setOutcome job outcome]

/-- The steps of a publication only look at the slot of the job, and at its record. -/
lemma plan_publish_own {c : Cluster} {job : String} {slot : RunSlot} {r : Record}
    (own : c.slots.find? job = some slot) (stored : c.Stores job r) (result : Option WorkResult)
    (now : ℕ) :
    (Program.plan c (Operation.publish job result now)).2
      = outcomeSteps job r (Operation.outcomeOf slot.interrupted result) slot.accumulators now := by
  rw [Operation.plan_publish, own]
  simp only
  rw [Operation.plan_persist, show c.store.getJob job = .ok (some r) from stored]
  rfl

/-- Afterwards the record says how the execution has ended. -/
lemma stores_outcomeSteps {job : String} {r : Record} {outcome : Job.Outcome} {now : ℕ}
    (name : (r.finish outcome now).name = job) (fits : (r.finish outcome now).Fits) (c : Cluster)
    (a : Accumulators) : (c.after (outcomeSteps job r outcome a now)).Stores job (r.finish outcome now) := by
  simp only [Stores, outcomeSteps, after_cons, after_nil]
  rw [Action.perform_getJob _ _ (by simp), Action.perform_getJob _ _ (by simp)]
  exact (c.store.getJob_putJob fits job).trans (if_pos name)

end Cluster

end ControlPlane
