import Mathlib
import ControlPlane.Proofs.Cluster.Courses
import ControlPlane.Proofs.Cluster.Opening

/-!
# Refused calls

An operation reads several rows before it writes the first one, and any of them may be missing, or in the
way, or not be readable at all.  Here nothing is known about the rows and the slots of the cluster: whatever
an operation finds, it fails before its first write or not at all.

* `Program.trace` — all steps of a program, also those that only look.
* `Program.looks_iff` — a program has only looked exactly when its plan is empty.
* `Call.actions_of_error` — a call that fails writes nothing.
* `Cluster.refused_only_looks` — hence a refused call leaves the cluster as it is.
-/

namespace ControlPlane

/-! ## Steps that only look -/

namespace Program

variable {α : Type}

/-- **All steps of a program** that is carried out in one go. -/
def trace (c : Cluster) : Program α → List Action
  | done _ => []
  | act action next => action :: (next (action.perform c).1).trace (action.perform c).2

/-- The plan of a program has those of its steps that do more than look. -/
lemma plan_steps (p : Program α) (c : Cluster) :
    (p.plan c).2 = (p.trace c).filter fun a => !a.isRead := by
  induction p generalizing c with
  | done a => rfl
  | act action next ih =>
      simp only [plan, trace, List.filter_cons, ih]
      cases action.isRead <;> rfl

lemma looks_iff (p : Program α) (c : Cluster) :
    (p.plan c).2 = [] ↔ ∀ a ∈ p.trace c, a.isRead = true := by
  rw [plan_steps, List.filter_eq_nil_iff]
  simp

end Program

/-! ## Calls -/

namespace Call

variable {c : Cluster} {job : String} {now : ℕ}

/-- A call that fails writes nothing. -/
lemma actions_of_error {call : Call} {e : ClusterError}
    (failed : (Operation.plan c (call.operation job now)).1 = .error e) :
    call.actions c job now = [] := by
  have silent : ∀ i : Intent, i.call = call → i.call.actions c job now = [] := by
    rintro i rfl
    exact (i.actions_eq_nil_iff c job now).mpr ⟨e, failed⟩
  cases call with
  | register config => exact silent (.init config) rfl
  | deploy resources => exact silent (.deploy resources) rfl
  | submit graph => exact silent (.submit graph) rfl
  | start => exact silent .execute rfl
  | interrupt => exact silent .interrupt rfl
  | destroy => exact silent .destroy rfl
  | await => rw [actions_eq]
  | accumulators => rw [actions_eq]

/-- The writes of a call with all its steps. -/
lemma plan_course (call : Call) (job : String) (now : ℕ) (c : Cluster) :
    ((call.course job now).plan c).2 = call.actions c job now := by
  cases call
  case await =>
    have plan : Program.plan c (Operation.beginAwait job).run = _ := Operation.plan_beginAwait c job
    rw [course, Program.plan_bind, plan, actions_eq]
    simp only [Cluster.after_nil, List.nil_append]
    rcases c.slots.find? job with _ | slot
    · simp only
      rcases (Operation.plan c (Operation.storedOutcome job)).1 with e | outcome <;> rfl
    · rfl
  all_goals
    simp only [course, Program.plan_bind, Program.plan_pure, List.append_nil]
    rfl

/-- A call whose answer is a failure, whenever that comes. -/
lemma actions_of_refused {call : Call} {e : ClusterError} {d : Cluster}
    (refused : (c.issue now job call).1.poll d = some (.error e)) : call.actions c job now = [] := by
  by_cases atOnce : call = .await
  · subst atOnce
    rw [actions_eq]
  · rw [c.issue_answer now job atOnce] at refused
    exact actions_of_error (Option.some.inj refused)

end Call

namespace Cluster

/-- **A refused call changes nothing.**  Take any cluster, with any rows in its tables and any run slots,
and any call on any job.  If the call is answered with a failure, at once or when the cluster has become
another one in the meantime, then it has left the cluster as it was, and all that it has done was to look;
so it has called no executor. -/
theorem refused_only_looks {c d : Cluster} {job : String} {call : Call} {now : ℕ} {e : ClusterError}
    (refused : (c.issue now job call).1.poll d = some (.error e)) :
    (c.issue now job call).2 = c
      ∧ (∀ a ∈ (call.course job now).trace c, a.isRead = true)
      ∧ ∀ context, Action.launch context ∉ (call.course job now).trace c := by
  have silent := Call.actions_of_refused refused
  have looks : ∀ a ∈ (call.course job now).trace c, a.isRead = true := by
    rw [← Program.looks_iff, Call.plan_course, silent]
  refine ⟨?_, looks, fun context member => ?_⟩
  · rw [issue_eq, silent, after_nil]
  · simpa [Action.isRead] using looks _ member

/-- A submitted job whose graph is no text, and which has a slot already. -/
def garbled : Cluster :=
  { ofStore ((Store.empty.putJob ((Record.new "a" plainConfig 0).advance .submitted 0)).putRow .graphs "a"
      ⟨#[255]⟩) acknowledge with slots := Table.empty.insert "a" ⟨0, true, none, .empty⟩ }

/-- The start of such a job fails at its graph, and nothing is run. -/
theorem garbled_graph_is_not_started :
    (garbled.issue 0 "a" .start).1.poll garbled = some (.error (.state (.codec .malformed)))
      ∧ (garbled.issue 0 "a" .start).2 = garbled
      ∧ ∀ context, Action.launch context ∉ (Call.start.course "a" 0).trace garbled := by
  set r := (Record.new "a" plainConfig 0).advance .submitted 0
  have fits : r.Fits := ⟨plainConfig_fits, by decide, by decide⟩
  have stored : garbled.store.getJob "a" = .ok (some r) :=
    (Store.getJob_congr rfl).trans ((Store.empty.getJob_putJob fits "a").trans (if_pos rfl))
  have found : garbled.findRecord "a" = .ok r := by
    rw [findRecord, stored]
    rfl
  have unreadable : garbled.store.getGraph "a" = .error (.codec .malformed) := by
    have text : String.fromUTF8? (⟨#[255]⟩ : ByteArray) = none := by decide
    simp [garbled, ofStore, Store.putRow, Store.getGraph, Store.get, Row.decode, text, Except.map]
  have refused : (garbled.issue 0 "a" .start).1.poll garbled
      = some (.error (.state (.codec .malformed))) := by
    rw [issue_answer _ _ _ (by simp)]
    show some (Operation.plan garbled (Call.start.operation "a" 0)).1 = _
    rw [Call.operation, Operation.plan_map, Operation.plan_start, found]
    simp [unreadable, r, Record.advance, Record.new, Except.map]
  obtain ⟨same, -, quiet⟩ := refused_only_looks refused
  exact ⟨refused, same, quiet⟩

end Cluster

end ControlPlane
