import Mathlib
import ControlPlane.Proofs.Cluster.Alike

/-!
# What can be seen of one job

Somebody who has to do with one job calls the cluster about it, looks again for the answers to
earlier calls, and reads the record.  In between, the executions of the job go on.

* `Errand` — one of these, and `Cluster.shows` — what is seen in the course of some of them.
* `Cluster.Alike.shows` — clusters that are alike for a job show the same.
-/

namespace ControlPlane

/-! ## Errands -/

/-- **What is done about one job**, or happens to it. -/
inductive Errand where
  /-- A call, and the answer that it gets at once if there is one. -/
  | call (call : Call) (now : UInt64) (fits : call.Fits)
  /-- The answer to the call with number `n`, if there is one by now. -/
  | look (n : ℕ)
  /-- The record of the job. -/
  | record
  /-- The execution with number `n` among those of the job goes on as far as it can. -/
  | resolve (n : ℕ)
  /-- The execution with number `n` publishes, if it has resolved. -/
  | publish (n : ℕ) (now : UInt64)
  /-- Somebody writes to the counters of the execution with number `n`. -/
  | write (n : ℕ) (w : SinkWrite)
  /-- What the latest execution of the job waits for has come. -/
  | openGate
  /-- Another cluster over the same store, of which nobody has called anything yet. -/
  | restart

/-- What an errand shows. -/
inductive Sight where
  | answer (answer : Option Answer)
  | record (r : Except StoreError (Option Record))
  | nothing

/-- A cluster with the calls that have been made, in their order, and with the executions of the job: those
of which there was a task at the beginning, and then those that have been launched. -/
structure Visit where
  cluster : Cluster
  issued : List Issued
  executions : List ℕ

namespace Visit

/-- Something happens to the cluster. -/
def onCluster (v : Visit) (c : Cluster) : Visit := { v with cluster := c }

/-- **One errand.** -/
def act (job : String) (v : Visit) : Errand → Sight × Visit
  | .call call now _ =>
    let (issued, c) := v.cluster.issue now.toNat job call
    (.answer (issued.poll c), ⟨c, v.issued ++ [issued], v.executions ++ v.cluster.launched c⟩)
  | .look n => (.answer (v.issued[n]?.bind (Issued.poll v.cluster)), v)
  | .record => (.record (v.cluster.store.getJob job), v)
  | .resolve n => (.nothing, (v.executions[n]?.map fun e =>
      v.onCluster (v.cluster.react (.resolve e))).getD v)
  | .publish n now => (.nothing, (v.executions[n]?.map fun e =>
      v.onCluster (v.cluster.react (.publish e now))).getD v)
  | .write n w => (.nothing, (v.executions[n]?.map fun e =>
      v.onCluster (v.cluster.react (.write e w))).getD v)
  | .openGate => (.nothing, v.onCluster (v.cluster.openGate job).2)
  | .restart => (.nothing, ⟨v.cluster.restart, [], []⟩)

/-- What is seen on errands, one after the other. -/
def sights (job : String) (v : Visit) : List Errand → List Sight
  | [] => []
  | e :: rest => (v.act job e).1 :: (v.act job e).2.sights job rest

end Visit

/-- The numbers of the tasks of a job. -/
def Cluster.tasksFor (c : Cluster) (job : String) : List ℕ :=
  (c.tasks.filter fun t => t.job = job).map RunTask.execution

/-- **What a cluster shows of a job** to somebody who comes for the first time. -/
def Cluster.shows (c : Cluster) (job : String) (errands : List Errand) : List Sight :=
  Visit.sights job ⟨c, [], c.tasksFor job⟩ errands

/-! ## Alike on both sides -/

/-- Two calls that have been answered alike, or that wait for the same execution. -/
inductive Issued.Alike (job : String) (same : ℕ → ℕ → Prop) : Issued → Issued → Prop where
  | answered (answer : Answer) : Alike job same (.answered answer) (.answered answer)
  | told (answer : Except ClusterError Job.Outcome) :
      Alike job same (.waiting (.answered answer)) (.waiting (.answered answer))
  | waits {e f : ℕ} (pair : same e f) :
      Alike job same (.waiting (.waiting job e)) (.waiting (.waiting job f))

namespace Issued.Alike

variable {c d : Cluster} {job : String} {same next : ℕ → ℕ → Prop} {i j : Issued}

lemma mono (h : Alike job same i j) (keeps : ∀ {e f}, same e f → next e f) :
    Alike job next i j := by
  cases h with
  | answered answer => exact .answered answer
  | told answer => exact .told answer
  | waits pair => exact .waits (keeps pair)

/-- **Calls that are alike** get their answers at the same time, and the same ones. -/
lemma poll_eq (h : Alike job same i j) (alike : Cluster.Alike job same c d) :
    j.poll d = i.poll c := by
  cases h with
  | answered answer => rfl
  | told answer => rfl
  | @waits e f pair =>
      simp only [Issued.poll, Waiter.poll, alike.published pair]
      cases c.published.lookup e with
      | some outcome => rfl
      | none =>
          have kept : Waiter.isKept d job f = Waiter.isKept c job e := by
            rcases alike.slot_cases with ⟨mine, other⟩ | ⟨s, n, pair', mine, other⟩
            · simp [Waiter.isKept, mine, other]
            · simp [Waiter.isKept, mine, other, alike.inj pair pair']
          simp only [kept]

end Issued.Alike

namespace Cluster.Alike

variable {c d : Cluster} {job : String} {same : ℕ → ℕ → Prop}

/-- **A call on both sides.** -/
theorem issue (h : Alike job same c d) (call : Call) (now : UInt64) (fits : call.Fits) :
    ∃ next, (∀ {e f}, same e f → next e f)
      ∧ Alike job next (c.issue now.toNat job call).2 (d.issue now.toNat job call).2
      ∧ Issued.Alike job next (c.issue now.toNat job call).1 (d.issue now.toNat job call).1
      ∧ List.Forall₂ next (c.launched (c.issue now.toNat job call).2)
          (d.launched (d.issue now.toNat job call).2) := by
  have stays := staysWith_effect (Request.effect ⟨job, call, now, fits⟩ c)
  have actions : call.actions d job now.toNat = call.actions c job now.toNat :=
    congrArg Prod.snd (h.plan_eq call now.toNat)
  obtain ⟨next, keeps, alike, launched⟩ := h.after stays
  refine ⟨next, keeps, ?_, ?_, ?_⟩
  · rw [issue_eq, issue_eq, actions]
    exact alike
  · by_cases waits : call = .await
    · subst waits
      show Issued.Alike job next (.waiting (Waiter.start c job)) (.waiting (Waiter.start d job))
      rw [Waiter.start_eq, Waiter.start_eq]
      rcases h.slot_cases with ⟨mine, other⟩ | ⟨s, n, pair, mine, other⟩
      · have told : Operation.plan d (Operation.storedOutcome job)
            = Operation.plan c (Operation.storedOutcome job) := by
          rw [Operation.plan_storedOutcome, Operation.plan_storedOutcome, h.findRecord]
        simp only [mine, other, told]
        exact .told _
      · simp only [mine, other]
        exact .waits (keeps pair)
    · rw [issue_answer c _ _ waits, issue_answer d _ _ waits, h.plan_eq]
      exact .answered _
  · rw [issue_eq, issue_eq, actions]
    exact launched

end Cluster.Alike

/-- What is at one place in two lists whose items belong together. -/
lemma getElem?_of_forall₂ {α β : Type} {R : α → β → Prop} {l : List α} {l' : List β}
    (h : List.Forall₂ R l l') (n : ℕ) :
    l[n]? = none ∧ l'[n]? = none ∨ ∃ a b, l[n]? = some a ∧ l'[n]? = some b ∧ R a b := by
  induction h generalizing n with
  | nil => exact .inl ⟨rfl, rfl⟩
  | @cons a b _ _ first rest ih =>
      cases n with
      | zero => exact .inr ⟨a, b, rfl, rfl, first⟩
      | succ n => exact ih n

/-- Two visits on clusters that are alike, with calls that are. -/
structure Visit.Alike (job : String) (same : ℕ → ℕ → Prop) (v w : Visit) : Prop where
  cluster : Cluster.Alike job same v.cluster w.cluster
  issued : List.Forall₂ (Issued.Alike job same) v.issued w.issued
  executions : List.Forall₂ same v.executions w.executions

namespace Visit.Alike

variable {v w : Visit} {job : String} {same : ℕ → ℕ → Prop}

lemma look (h : Alike job same v w) (n : ℕ) :
    w.issued[n]?.bind (Issued.poll w.cluster) = v.issued[n]?.bind (Issued.poll v.cluster) := by
  have issued := h.issued
  generalize v.issued = mine at issued
  generalize w.issued = other at issued
  induction issued generalizing n with
  | nil => rfl
  | cons first rest ih =>
      cases n with
      | zero => simpa using first.poll_eq h.cluster
      | succ n => simpa using ih n

/-- Nothing new has been called or launched. -/
lemma goes_on (h : Alike job same v w) {next : ℕ → ℕ → Prop} (keeps : ∀ {e f}, same e f → next e f)
    {c d : Cluster} (alike : Cluster.Alike job next c d) :
    Alike job next (v.onCluster c) (w.onCluster d) :=
  ⟨alike, h.issued.imp fun _ _ pair => pair.mono keeps, h.executions.imp fun _ _ => keeps⟩

/-- The executions with one number on both sides do the same. -/
lemma at_number (h : Alike job same v w) (n : ℕ) {f : ℕ → Tick}
    (each : ∀ {e e'}, same e e' → ∃ next, (∀ {e f}, same e f → next e f)
      ∧ Cluster.Alike job next (v.cluster.react (f e)) (w.cluster.react (f e'))) :
    ∃ next, Alike job next
      ((v.executions[n]?.map fun e => v.onCluster (v.cluster.react (f e))).getD v)
      ((w.executions[n]?.map fun e => w.onCluster (w.cluster.react (f e))).getD w) := by
  rcases getElem?_of_forall₂ h.executions n with ⟨mine, other⟩ | ⟨e, f, mine, other, pair⟩
  · rw [mine, other]
    exact ⟨same, h⟩
  · obtain ⟨next, keeps, alike⟩ := each pair
    rw [mine, other]
    exact ⟨next, h.goes_on keeps alike⟩

/-- **One errand on both sides** shows the same, and leaves the visits alike. -/
theorem act (h : Alike job same v w) (errand : Errand) :
    ∃ next, Alike job next (v.act job errand).2 (w.act job errand).2
      ∧ (w.act job errand).1 = (v.act job errand).1 := by
  have silent : ∀ {x y : Visit}, (∃ next, Alike job next x y) →
      ∃ next, Alike job next x y ∧ Sight.nothing = Sight.nothing :=
    fun ⟨next, alike⟩ => ⟨next, alike, rfl⟩
  cases errand with
  | call call now fits =>
      obtain ⟨next, keeps, alike, issued, launched⟩ := h.cluster.issue call now fits
      have before := h.goes_on keeps alike
      refine ⟨next, ⟨alike, ?_, ?_⟩, congrArg Sight.answer (issued.poll_eq alike)⟩
      · exact List.rel_append before.issued (.cons issued .nil)
      · exact List.rel_append before.executions launched
  | look n => exact ⟨same, h, congrArg Sight.answer (h.look n)⟩
  | record => exact ⟨same, h, congrArg Sight.record h.cluster.store.getJob⟩
  | resolve n => exact silent (h.at_number n fun pair => ⟨same, id, h.cluster.resolved pair⟩)
  | publish n now => exact silent (h.at_number n fun pair => h.cluster.publish pair now)
  | write n w => exact silent (h.at_number n fun pair => ⟨same, id, h.cluster.writeSink pair w⟩)
  | openGate => exact ⟨same, h.goes_on id h.cluster.openGate, rfl⟩
  | restart => exact ⟨same, ⟨h.cluster.restart, .nil, .nil⟩, rfl⟩

/-- **Errands one after the other.** -/
theorem sights (h : Alike job same v w) (errands : List Errand) :
    w.sights job errands = v.sights job errands := by
  induction errands generalizing v w same with
  | nil => rfl
  | cons e rest ih =>
      obtain ⟨next, alike, sight⟩ := h.act e
      rw [Visit.sights, Visit.sights, sight, ih alike]

end Visit.Alike

/-- **Clusters that are alike for a job** show the same of it, whatever is done about the job. -/
theorem Cluster.Alike.shows {c d : Cluster} {job : String} {same : ℕ → ℕ → Prop}
    (h : Cluster.Alike job same c d)
    (tasks : List.Forall₂ same (c.tasksFor job) (d.tasksFor job)) (errands : List Errand) :
    d.shows job errands = c.shows job errands :=
  Visit.Alike.sights (v := ⟨c, [], _⟩) (w := ⟨d, [], _⟩) ⟨h, .nil, tasks⟩ errands

end ControlPlane
