import Mathlib
import ControlPlane.Proofs.Cluster.Acceptance
import ControlPlane.Proofs.Cluster.Courses

/-!
# What happens elsewhere

All jobs are in one store, in one table of run slots and in one list of tasks.  Still a step about one job
leaves the others alone: keys of rows and slots tell the jobs apart, and so do the numbers of executions,
of which no two jobs share one.

* `Cluster.Belongs` — which executions belong to which job; steps, tasks and gates keep this.
* `Cluster.Untouched` — a job is as it was, in every table and in every list.
* `Untouched.perform`, `Untouched.resolved`, `Untouched.retire`, `Untouched.openGate` — what is done about
  another job leaves it so.
* `Alike.untouched` — and then it is still alike to what it was alike to.
-/

namespace ControlPlane

namespace Action.Concerns

variable {a : Action} {job key : String}

lemma named (h : a.Concerns key) : a.Named := by
  cases a
  case putResources job rs =>
    obtain ⟨rfl, valid⟩ : job = key ∧ _ := h
    exact valid
  case purge job =>
    obtain ⟨rfl, valid⟩ : job = key ∧ _ := h
    exact valid
  all_goals trivial

lemma avoids (h : a.Concerns key) (other : key ≠ job) : a.Avoids job := by
  cases a
  case putJob r =>
    obtain ⟨rfl, -⟩ : r.name = key ∧ _ := h
    exact other
  case putResources job rs =>
    obtain ⟨rfl, valid⟩ : job = key ∧ _ := h
    exact ⟨other, valid⟩
  case putGraph job g =>
    obtain rfl : job = key := h
    exact other
  case putAccumulators job a =>
    obtain rfl : job = key := h
    exact other
  all_goals trivial

lemma ne_purge (h : a.Concerns key) (other : key ≠ job) : a ≠ .purge job := by
  rintro rfl
  exact other h.1.symm

end Action.Concerns

namespace Cluster

/-! ## What is old after a step -/

section Old

variable {c : Cluster} {a : Action}

variable (quiet : ∀ context, a ≠ .launch context)

include quiet

lemma perform_latest_old : (a.perform c).2.latest = c.latest := by
  cases a
  case launch context => exact absurd rfl (quiet context)
  case requestInterrupt key =>
    show (c.modifySlot key _).latest = c.latest
    rw [modifySlot_eq]
  case removeSlot key =>
    show (c.removeSlot key).latest = c.latest
    rw [removeSlot_eq]
  case setOutcome key outcome =>
    show (c.setOutcome key outcome).latest = c.latest
    rw [setOutcome_eq_modifySlot, modifySlot_eq]
  all_goals rfl

lemma perform_slots_old {key : String} {slot : RunSlot}
    (found : (a.perform c).2.slots.find? key = some slot) :
    ∃ old, c.slots.find? key = some old ∧ slot.execution = old.execution := by
  rw [Action.perform_find?] at found
  cases a
  case launch context => exact absurd rfl (quiet context)
  case removeSlot job =>
    simp only at found
    split_ifs at found
    exact ⟨slot, found, rfl⟩
  case requestInterrupt job | setOutcome job outcome =>
    simp only at found
    split_ifs at found
    · obtain ⟨old, before, rfl⟩ := Option.map_eq_some_iff.mp found
      exact ⟨old, before, rfl⟩
    · exact ⟨slot, found, rfl⟩
  all_goals exact ⟨slot, found, rfl⟩

lemma perform_tasks_old {t : RunTask} (member : t ∈ (a.perform c).2.tasks) : t ∈ c.tasks := by
  rw [Action.perform_tasks] at member
  cases a
  case launch context => exact absurd rfl (quiet context)
  case removeSlot job =>
    simp only [Cluster.removeSlot] at member
    cases found : c.slots.find? job with
    | none => rwa [found] at member
    | some slot =>
        rw [found] at member
        exact (List.mem_filter.mp member).1
  all_goals exact member

end Old

/-- A task that is carried on changes the counters in a slot, and the phase of a task. -/
lemma resolved_cases (c : Cluster) (execution : ℕ) :
    c.resolved execution = c ∨ ∃ t a phase, c.findTask execution = some t
      ∧ c.resolved execution = (c.modifySlot t.job fun slot =>
          if slot.execution = t.execution then { slot with accumulators := a } else slot).replaceTask
        { t with phase := phase } := by
  unfold resolved
  cases found : c.findTask execution with
  | none => exact .inl rfl
  | some t =>
      cases phase : t.phase with
      | resolved result => exact .inl (by simp [resolveTask, phase])
      | working work =>
          obtain ⟨a, next, eq, -⟩ := c.resolveTask_eq phase
          exact .inr ⟨t, a, next, rfl, by rw [← putCounters_eq_modifySlot, ← eq]⟩

/-! ## Whose an execution is -/

/-- **Every execution belongs to one job**, where `executions` tells which executions belong to which. -/
structure Belongs (executions : String → List ℕ) (c : Cluster) : Prop where
  given : ∀ {job e}, e ∈ executions job → e < c.nextExecution
  apart : ∀ {job key e}, e ∈ executions job → e ∈ executions key → job = key
  slots : ∀ {job slot}, c.slots.find? job = some slot → slot.execution ∈ executions job
  tasks : ∀ t ∈ c.tasks, t.execution ∈ executions t.job
  latest : ∀ {job e}, c.latest.find? job = some e → e ∈ executions job

namespace Belongs

variable {c d : Cluster} {executions : String → List ℕ} {job key : String} {a : Action}

/-- No execution has come. -/
lemma of_less (h : c.Belongs executions) (next : d.nextExecution = c.nextExecution)
    (slots : ∀ {key slot}, d.slots.find? key = some slot →
      ∃ old, c.slots.find? key = some old ∧ slot.execution = old.execution)
    (tasks : ∀ t ∈ d.tasks, ∃ u ∈ c.tasks, t.job = u.job ∧ t.execution = u.execution)
    (latest : d.latest = c.latest) : d.Belongs executions where
  given := by
    intro job e member
    rw [next]
    exact h.given member
  apart := h.apart
  slots := by
    intro job slot found
    obtain ⟨old, before, same⟩ := slots found
    rw [same]
    exact h.slots before
  tasks := by
    intro t member
    obtain ⟨u, before, job, execution⟩ := tasks t member
    rw [job, execution]
    exact h.tasks u before
  latest := by
    rw [latest]
    exact h.latest

lemma launch (h : c.Belongs executions) {context : ExecutionContext} :
    (c.launch context).Belongs
      (Function.update executions context.job (executions context.job ++ [c.nextExecution])) := by
  have mem_iff : ∀ {key e}, e ∈ Function.update executions context.job
        (executions context.job ++ [c.nextExecution]) key
      ↔ e ∈ executions key ∨ key = context.job ∧ e = c.nextExecution := by
    intro key e
    rw [Function.update_apply]
    split_ifs with here
    · subst here
      simp
    · simp [here]
  constructor
  case given =>
    intro job e member
    rcases mem_iff.mp member with old | ⟨-, rfl⟩
    · exact (h.given old).trans (Nat.lt_succ_self _)
    · exact Nat.lt_succ_self _
  case apart =>
    intro job key e mine other
    rcases mem_iff.mp mine with old | ⟨here, rfl⟩ <;> rcases mem_iff.mp other with old' | ⟨there, new⟩
    · exact h.apart old old'
    · exact absurd (h.given old) (by simp [new])
    · exact absurd (h.given old') (lt_irrefl _)
    · exact here.trans there.symm
  case slots =>
    intro job slot found
    rw [launch_find?] at found
    split_ifs at found with here
    · obtain rfl := Option.some.inj found
      exact mem_iff.mpr (.inr ⟨here.symm, rfl⟩)
    · exact mem_iff.mpr (.inl (h.slots found))
  case tasks =>
    intro t member
    rcases List.mem_append.mp member with before | new
    · exact mem_iff.mpr (.inl (h.tasks t before))
    · obtain rfl := List.mem_singleton.mp new
      exact mem_iff.mpr (.inr ⟨rfl, rfl⟩)
  case latest =>
    intro job e found
    simp only [Cluster.launch, Table.find?_insert] at found
    split_ifs at found with here
    · obtain rfl := Option.some.inj found
      exact mem_iff.mpr (.inr ⟨here.symm, rfl⟩)
    · exact mem_iff.mpr (.inl (h.latest found))

/-- **A step about a job**: an execution that it launches belongs to this job. -/
theorem perform (h : c.Belongs executions) (own : a.Concerns job) :
    (a.perform c).2.Belongs
      (Function.update executions job (executions job ++ c.launched (a.perform c).2)) := by
  by_cases launches : ∃ context, a = .launch context
  · obtain ⟨context, rfl⟩ := launches
    obtain rfl : context.job = job := own
    show (c.launch context).Belongs (Function.update executions context.job
      (executions context.job ++ c.launched (c.launch context)))
    rw [launched_launch]
    exact h.launch
  · have quiet : ∀ context, a ≠ .launch context := fun context same => launches ⟨context, same⟩
    rw [launched_of_eq (perform_next_old quiet), List.append_nil, Function.update_eq_self]
    exact h.of_less (perform_next_old quiet) (perform_slots_old quiet)
      (fun t member => ⟨t, perform_tasks_old quiet member, rfl, rfl⟩) (perform_latest_old quiet)

lemma resolved (h : c.Belongs executions) (e : ℕ) : (c.resolved e).Belongs executions := by
  rcases c.resolved_cases e with same | ⟨t, a, phase, found, eq⟩
  · rwa [same]
  rw [eq]
  refine h.of_less (modifySlot_nextExecution ..) ?_ ?_ (by rw [modifySlot_eq]; rfl)
  · intro key slot found
    rw [replaceTask_slots, modifySlot_find?] at found
    split_ifs at found
    · obtain ⟨old, before, rfl⟩ := Option.map_eq_some_iff.mp found
      exact ⟨old, before, by split_ifs <;> rfl⟩
    · exact ⟨slot, found, rfl⟩
  · intro u member
    obtain ⟨v, before, rfl⟩ := List.mem_map.mp member
    rw [modifySlot_tasks] at before
    split_ifs
    · exact ⟨t, List.mem_of_find?_eq_some found, rfl, rfl⟩
    · exact ⟨v, before, rfl, rfl⟩

lemma retire (h : c.Belongs executions) (e : ℕ) : (c.retire e).Belongs executions := by
  have tasks : ∀ t ∈ (c.retire e).tasks, t ∈ c.tasks := by
    intro t member
    unfold Cluster.retire at member
    split at member
    · split at member
      · exact (List.mem_filter.mp member).1
      · exact member
    · exact member
  rw [retire_eq]
  exact h.of_less rfl (fun {key slot} found => ⟨slot, found, rfl⟩)
    (fun t member => ⟨t, tasks t member, rfl, rfl⟩) rfl

lemma openGate (h : c.Belongs executions) (key : String) : (c.openGate key).2.Belongs executions := by
  rw [openGate_eq]
  refine h.of_less rfl (fun {key slot} found => ⟨slot, found, rfl⟩) (fun t member => ?_) rfl
  obtain ⟨u, before, rfl⟩ := List.mem_map.mp member
  exact ⟨u, before, by split_ifs <;> rfl, by split_ifs <;> rfl⟩

lemma restart (c : Cluster) : c.restart.Belongs fun _ => [] where
  given := by simp
  apart := by simp
  slots := by simp [Cluster.restart]
  tasks := by simp [Cluster.restart]
  latest := by simp [Cluster.restart]

/-- The job of a task that is found by the number of its execution. -/
lemma job_of_findTask (h : c.Belongs executions) {e : ℕ} (member : e ∈ executions key) {t : RunTask}
    (found : c.findTask e = some t) : t.job = key := by
  have mine := h.tasks t (List.mem_of_find?_eq_some found)
  rw [findTask_execution found] at mine
  exact h.apart mine member

/-- An execution of one job has not the number of an execution of another. -/
lemma ne (h : c.Belongs executions) (other : key ≠ job) {e f : ℕ} (mine : e ∈ executions job)
    (theirs : f ∈ executions key) : e ≠ f := by
  rintro rfl
  exact other (h.apart theirs mine)

end Belongs

/-! ## Left alone -/

/-- A change to the tasks of other executions. -/
lemma filter_map_of_others {l : List RunTask} {g : RunTask → RunTask} {e : ℕ}
    (execution : ∀ t, (g t).execution = t.execution) (others : ∀ t, t.execution = e → g t = t) :
    (l.map g).filter (fun t => t.execution = e) = l.filter fun t => t.execution = e := by
  rw [List.filter_map]
  simp only [Function.comp_def, execution]
  refine (List.map_congr_left fun t member => ?_).trans (List.map_id _)
  exact others t (by simpa using (List.mem_filter.mp member).2)

/-- **A job is as it was**, with its rows, its slot and its executions. -/
structure Untouched (job : String) (mine : List ℕ) (c d : Cluster) : Prop where
  store : Store.SameRows job c.store d.store
  executor : d.executor = c.executor
  slot : d.slots.find? job = c.slots.find? job
  next : c.nextExecution ≤ d.nextExecution
  published : ∀ e ∈ mine, d.published.lookup e = c.published.lookup e
  tasks : ∀ e ∈ mine, d.tasksOf e = c.tasksOf e
  latest : d.latest.find? job = c.latest.find? job

namespace Untouched

variable {c : Cluster} {executions : String → List ℕ} {job key : String} {a : Action}

lemma refl (job : String) (mine : List ℕ) (c : Cluster) : Untouched job mine c c :=
  ⟨.refl job c.store, rfl, rfl, le_rfl, fun _ _ => rfl, fun _ _ => rfl, rfl⟩

/-- **A step about another job** leaves a job as it was. -/
theorem perform (h : c.Belongs executions) (valid : Job.isName job = true) (other : key ≠ job)
    (theirs : a.Concerns key) : Untouched job (executions job) c (a.perform c).2 := by
  constructor
  case store => exact Action.perform_sameRows valid theirs.named (theirs.avoids other) (theirs.ne_purge other) c
  case executor => exact Action.perform_executor c a
  case slot =>
    rw [Action.perform_find?]
    cases a
    case launch | requestInterrupt | removeSlot | setOutcome =>
      exact if_neg ((show _ = key from theirs) ▸ other)
    all_goals rfl
  case next =>
    rw [Action.perform_nextExecution]
    cases a
    case launch => exact Nat.le_succ _
    all_goals exact le_rfl
  case published =>
    intro e mine
    rw [Action.perform_published]
    cases a
    case setOutcome job' outcome =>
      obtain rfl : job' = key := theirs
      simp only
      cases found : c.slots.find? job' with
      | none => rfl
      | some slot =>
          rw [List.lookup_cons, beq_false_of_ne (h.ne other mine (h.slots found))]
    all_goals rfl
  case tasks =>
    intro e mine
    rw [tasksOf, Action.perform_tasks]
    cases a
    case launch context =>
      have new : c.nextExecution ≠ e := (h.given mine).ne'
      simp [tasksOf, new]
    case removeSlot job' =>
      obtain rfl : job' = key := theirs
      simp only [Cluster.removeSlot]
      cases found : c.slots.find? job' with
      | none => rfl
      | some slot =>
          have apart := h.ne other mine (h.slots found)
          simp only [List.filter_filter, tasksOf]
          refine List.filter_congr fun t _ => ?_
          by_cases same : t.execution = e
          · simp [same, apart]
          · simp [same]
    all_goals rfl
  case latest =>
    by_cases launches : ∃ context, a = .launch context
    · obtain ⟨context, rfl⟩ := launches
      have there : context.job ≠ job := (show context.job = key from theirs) ▸ other
      simp [Action.perform, Cluster.launch, there]
    · rw [perform_latest_old fun context same => launches ⟨context, same⟩]

/-- **An execution of another job is carried on.** -/
theorem resolved (h : c.Belongs executions) (other : key ≠ job) {e : ℕ} (theirs : e ∈ executions key) :
    Untouched job (executions job) c (c.resolved e) := by
  rcases c.resolved_cases e with same | ⟨t, a, phase, found, eq⟩
  · rw [same]
    exact .refl job _ c
  have there : t.job ≠ job := h.job_of_findTask theirs found ▸ other
  rw [eq, modifySlot_eq]
  refine ⟨.refl job c.store, rfl, ?_, le_rfl, fun _ _ => rfl, fun f mine => ?_, rfl⟩
  · show (c.modifySlot t.job _).slots.find? job = c.slots.find? job
    rw [modifySlot_find?, if_neg there]
  · have apart : f ≠ t.execution := findTask_execution found ▸ h.ne other mine theirs
    refine filter_map_of_others (fun u => ?_) fun u here => if_neg (here ▸ apart)
    split_ifs with same
    · exact same.symm
    · rfl

lemma retire (h : c.Belongs executions) (other : key ≠ job) {e : ℕ} (theirs : e ∈ executions key) :
    Untouched job (executions job) c (c.retire e) := by
  rw [retire_eq]
  refine ⟨.refl job c.store, rfl, rfl, le_rfl, fun _ _ => rfl, fun f mine => ?_, rfl⟩
  have apart := h.ne other mine theirs
  show (c.retire e).tasks.filter _ = c.tasks.filter _
  unfold Cluster.retire
  split <;> try split
  · rw [List.filter_filter]
    refine List.filter_congr fun t _ => ?_
    by_cases here : t.execution = f
    · simp [here, apart]
    · simp [here]
  all_goals rfl

lemma openGate (h : c.Belongs executions) (other : key ≠ job) :
    Untouched job (executions job) c (c.openGate key).2 := by
  rw [openGate_eq]
  refine ⟨.refl job c.store, rfl, rfl, le_rfl, fun _ _ => rfl, fun f mine => ?_, rfl⟩
  refine filter_map_of_others (fun t => by split_ifs <;> rfl) fun t here => if_neg fun latest => ?_
  exact h.ne other mine (h.latest latest) here.symm

end Untouched

/-- **A job that is left as it was** is still alike to what it was alike to. -/
theorem Alike.untouched {job : String} {same : ℕ → ℕ → Prop} {mine : List ℕ} {c c' d : Cluster}
    (h : Alike job same c d) (left : c'.Numbered) (untouched : Untouched job mine c c')
    (pairs : ∀ {e f}, same e f → e ∈ mine) : Alike job same c' d where
  left := left
  right := h.right
  executor := h.executor.trans untouched.executor.symm
  store := untouched.store.symm.trans h.store
  slot := by
    rw [untouched.slot]
    exact h.slot
  old := fun pair => ⟨(h.old pair).1.trans_le untouched.next, (h.old pair).2⟩
  inj := h.inj
  published := fun pair => (h.published pair).trans (untouched.published _ (pairs pair)).symm
  tasks := fun pair => by
    rw [untouched.tasks _ (pairs pair)]
    exact h.tasks pair
  own := fun pair => by
    rw [untouched.tasks _ (pairs pair)]
    exact h.own pair
  latest := fun pair => by
    rw [untouched.latest]
    exact h.latest pair

end Cluster

end ControlPlane
