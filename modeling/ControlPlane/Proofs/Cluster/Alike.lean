import Mathlib
import ControlPlane.Proofs.Cluster.Effect
import ControlPlane.Proofs.Registry.Keys

/-!
# Two clusters that are alike for one job

What a cluster answers about a job depends on the rows of the job in the store, on its slot and on
its executions.  Everything else may differ: other jobs, and the numbers that executions have got.

* `Cluster.Numbered` — every number in use has been given to an execution before.
* `Cluster.Alike` — two clusters that are the same for a job, up to which number stands for which.
* `Alike.plan_eq` — calls on the job get the same answers and take the same steps.
* `Alike.after`, `Alike.resolved`, `Alike.retire` — steps on both sides, and what the tasks of executions
  that stand for each other do, leave the clusters alike; a launch adds a pair of numbers.
-/

namespace ControlPlane

namespace Cluster

/-! ## Numbers of executions -/

/-- **Every number in use is an old one.** -/
structure Numbered (c : Cluster) : Prop where
  tasks : ∀ t ∈ c.tasks, t.execution < c.nextExecution
  slots : ∀ {job slot}, c.slots.find? job = some slot → slot.execution < c.nextExecution
  published : ∀ p ∈ c.published, p.1 < c.nextExecution

namespace Numbered

variable {c d : Cluster}

/-- No number has come into use. -/
lemma of_less (h : c.Numbered) (next : d.nextExecution = c.nextExecution)
    (tasks : ∀ t ∈ d.tasks, ∃ u ∈ c.tasks, t.execution = u.execution)
    (slots : ∀ {job slot}, d.slots.find? job = some slot →
      ∃ old, c.slots.find? job = some old ∧ slot.execution = old.execution)
    (published : d.published = c.published) : d.Numbered where
  tasks := by
    intro t member
    obtain ⟨u, old, same⟩ := tasks t member
    rw [same, next]
    exact h.tasks u old
  slots := by
    intro job slot found
    obtain ⟨old, before, same⟩ := slots found
    rw [same, next]
    exact h.slots before
  published := by
    rw [published, next]
    exact h.published

lemma launch (h : c.Numbered) (context : ExecutionContext) : (c.launch context).Numbered where
  tasks := by
    intro t member
    rcases List.mem_append.mp member with before | new
    · exact (h.tasks t before).trans (Nat.lt_succ_self _)
    · obtain rfl := List.mem_singleton.mp new
      exact Nat.lt_succ_self _
  slots := by
    intro job slot found
    rw [launch_find?] at found
    split_ifs at found
    · obtain rfl := Option.some.inj found
      exact Nat.lt_succ_self _
    · exact (h.slots found).trans (Nat.lt_succ_self _)
  published := fun p member => (h.published p member).trans (Nat.lt_succ_self _)

lemma modifySlot (h : c.Numbered) (job : String) {f : RunSlot → RunSlot}
    (execution : ∀ slot, (f slot).execution = slot.execution) : (c.modifySlot job f).Numbered := by
  refine h.of_less (modifySlot_nextExecution ..) ?_ ?_ (modifySlot_published ..)
  · rw [modifySlot_tasks]
    exact fun t member => ⟨t, member, rfl⟩
  · intro key slot found
    rw [modifySlot_find?] at found
    split_ifs at found
    · obtain ⟨old, before, rfl⟩ := Option.map_eq_some_iff.mp found
      exact ⟨old, before, execution old⟩
    · exact ⟨slot, found, rfl⟩

lemma removeSlot (h : c.Numbered) (job : String) : (c.removeSlot job).Numbered := by
  refine h.of_less (removeSlot_nextExecution ..) ?_ ?_ (removeSlot_published ..)
  · intro t member
    unfold Cluster.removeSlot at member
    cases found : c.slots.find? job with
    | none => exact ⟨t, by rwa [found] at member, rfl⟩
    | some slot =>
        rw [found] at member
        exact ⟨t, (List.mem_filter.mp member).1, rfl⟩
  · intro key slot found
    rw [removeSlot_find?] at found
    split_ifs at found
    exact ⟨slot, found, rfl⟩

lemma setOutcome (h : c.Numbered) (job : String) (outcome : Job.Outcome) :
    (c.setOutcome job outcome).Numbered := by
  rw [setOutcome_eq_modifySlot]
  have kept := h.modifySlot job (f := fun slot => { slot with outcome := some outcome }) fun _ => rfl
  refine ⟨kept.tasks, kept.slots, ?_⟩
  rw [modifySlot_nextExecution]
  cases found : c.slots.find? job with
  | none => exact h.published
  | some slot =>
      intro p member
      rcases List.mem_cons.mp member with rfl | old
      · exact h.slots found
      · exact h.published p old

/-- **Every step** gives a number to new executions only. -/
theorem perform (h : c.Numbered) (a : Action) : (a.perform c).2.Numbered := by
  cases a
  case launch context => exact h.launch context
  case requestInterrupt job => exact h.modifySlot job fun _ => rfl
  case removeSlot job => exact h.removeSlot job
  case setOutcome job outcome => exact h.setOutcome job outcome
  all_goals exact ⟨h.tasks, h.slots, h.published⟩

lemma after (h : c.Numbered) (actions : List Action) : (c.after actions).Numbered := by
  induction actions generalizing c with
  | nil => exact h
  | cons a rest ih => exact ih (h.perform a)

lemma replaceTask (h : c.Numbered) {t : RunTask} (old : t.execution < c.nextExecution) :
    (c.replaceTask t).Numbered := by
  refine ⟨fun u member => ?_, h.slots, h.published⟩
  obtain ⟨v, before, rfl⟩ := List.mem_map.mp member
  split_ifs
  · exact old
  · exact h.tasks v before

lemma resolved (h : c.Numbered) (execution : ℕ) : (c.resolved execution).Numbered := by
  unfold Cluster.resolved
  cases found : c.findTask execution with
  | none => exact h
  | some t =>
      have old := h.tasks t (List.mem_of_find?_eq_some found)
      cases phase : t.phase with
      | resolved result => simpa [resolveTask, phase] using h
      | working work =>
          obtain ⟨a, next, eq, -⟩ := c.resolveTask_eq phase
          simp only
          rw [eq, putCounters_eq_modifySlot]
          refine (h.modifySlot t.job fun slot => ?_).replaceTask ?_
          · split_ifs <;> rfl
          · rw [modifySlot_nextExecution]
            exact old

lemma retire (h : c.Numbered) (execution : ℕ) : (c.retire execution).Numbered := by
  unfold Cluster.retire
  split
  · split
    · exact ⟨fun t member => h.tasks t (List.mem_filter.mp member).1, h.slots, h.published⟩
    · exact h
  · exact h

lemma writeSink (h : c.Numbered) (execution : ℕ) (w : SinkWrite) :
    (c.writeSink execution w).Numbered := by
  refine h.of_less (writeSink_nextExecution ..) (fun t member => ⟨t, member, rfl⟩) ?_
    (writeSink_published ..)
  intro job slot found
  rw [writeSink_find?] at found
  obtain ⟨old, before, rfl⟩ := Option.map_eq_some_iff.mp found
  exact ⟨old, before, by split_ifs <;> rfl⟩

lemma openGate (h : c.Numbered) (job : String) : (c.openGate job).2.Numbered := by
  unfold Cluster.openGate
  split
  · refine ⟨fun t member => ?_, h.slots, h.published⟩
    obtain ⟨u, before, rfl⟩ := List.mem_map.mp member
    split_ifs <;> exact h.tasks u before
  · exact h

lemma restart : c.restart.Numbered where
  tasks := by simp [Cluster.restart]
  slots := by simp [Cluster.restart]
  published := by simp [Cluster.restart]

/-- **Every tick** gives a number to new executions only. -/
theorem react (h : c.Numbered) (t : Tick) : (c.react t).Numbered := by
  cases t with
  | call q =>
      rw [react_call]
      exact h.after _
  | resolve execution => exact h.resolved execution
  | publish execution now =>
      rw [react_publish_eq]
      exact (h.after _).retire execution
  | write execution w => exact h.writeSink execution w
  | openGate job => exact h.openGate job
  | exchange executor => exact ⟨h.tasks, h.slots, h.published⟩
  | restart => exact .restart

end Numbered

end Cluster

namespace World

lemma numbered_start (executor : Executor) : (World.start executor).cluster.Numbered where
  tasks := by simp [World.start, Cluster.ofStore]
  slots := by simp [World.start, Cluster.ofStore]
  published := by simp [World.start, Cluster.ofStore]

end World

/-! ## Alike -/

namespace Cluster

/-- The tasks of an execution. -/
def tasksOf (c : Cluster) (execution : ℕ) : List RunTask :=
  c.tasks.filter fun t => t.execution = execution

lemma findTask_eq_head? (c : Cluster) (execution : ℕ) :
    c.findTask execution = (c.tasksOf execution).head? := by
  rw [tasksOf, List.head?_filter]
  rfl

lemma mem_tasksOf {c : Cluster} {execution : ℕ} {t : RunTask} :
    t ∈ c.tasksOf execution ↔ t ∈ c.tasks ∧ t.execution = execution := by
  simp [tasksOf]

/-- A number that has not been given yet has no tasks. -/
lemma Numbered.tasksOf_next {c : Cluster} (h : c.Numbered) : c.tasksOf c.nextExecution = [] := by
  rw [tasksOf, List.filter_eq_nil_iff]
  intro t member
  simpa using (h.tasks t member).ne

/-- A number that has not been given yet has no outcome. -/
lemma Numbered.lookup_next {c : Cluster} (h : c.Numbered) :
    c.published.lookup c.nextExecution = none := by
  rw [List.lookup_eq_none_iff]
  intro p member
  simpa using (h.published p member).ne'

/-- The numbers that have been given between two clusters. -/
def launched (c d : Cluster) : List ℕ :=
  List.range' c.nextExecution (d.nextExecution - c.nextExecution)

@[simp] lemma launched_launch (c : Cluster) (context : ExecutionContext) :
    c.launched (c.launch context) = [c.nextExecution] := by
  simp [launched, launch]

lemma launched_of_eq {c d : Cluster} (next : d.nextExecution = c.nextExecution) : c.launched d = [] := by
  simp [launched, next]

lemma launched_append {c d e : Cluster} (first : c.nextExecution ≤ d.nextExecution)
    (second : d.nextExecution ≤ e.nextExecution) : c.launched d ++ d.launched e = c.launched e := by
  have whole : d.nextExecution - c.nextExecution + (e.nextExecution - d.nextExecution)
      = e.nextExecution - c.nextExecution := by omega
  rw [launched, launched, launched, ← whole, ← List.range'_append_1, Nat.add_sub_cancel' first]

lemma perform_next_old {c : Cluster} {a : Action} (quiet : ∀ context, a ≠ .launch context) :
    (a.perform c).2.nextExecution = c.nextExecution := by
  rw [Action.perform_nextExecution]
  cases a
  case launch context => exact absurd rfl (quiet context)
  all_goals rfl

lemma perform_next_le (c : Cluster) (a : Action) : c.nextExecution ≤ (a.perform c).2.nextExecution := by
  rw [Action.perform_nextExecution]
  cases a <;> simp

lemma after_next_le (c : Cluster) (actions : List Action) :
    c.nextExecution ≤ (c.after actions).nextExecution := by
  induction actions generalizing c with
  | nil => exact le_rfl
  | cons a rest ih => exact (perform_next_le c a).trans (ih _)

/-- Checks of resources look at the resources of the job only. -/
lemma plan_checkResources_congr {c d : Cluster} {job : String}
    (same : ∀ name, d.store.getResource job name = c.store.getResource job name) (rs : List Resource) :
    Operation.plan d (Operation.checkResources job rs)
      = Operation.plan c (Operation.checkResources job rs) := by
  induction rs with
  | nil => rfl
  | cons r rest ih =>
      simp only [Operation.checkResources, Operation.plan_bind, Operation.plan_getResource, same]
      rcases c.store.getResource job r.name with e | _ | existing
      · rfl
      · simp only [Except.mapError, after_nil, ih]
      · simp only [Except.mapError, after_nil]
        split_ifs
        · rw [ih]
        · rfl

/-- A gate opens for the tasks of the latest execution. -/
lemma openGate_eq (c : Cluster) (job : String) :
    (c.openGate job).2
      = { c with tasks := c.tasks.map fun t =>
          if c.latest.find? job = some t.execution then { t with gateOpen := true } else t } := by
  unfold openGate
  cases c.latest.find? job with
  | none => simp
  | some execution => simp [eq_comm]

/-- Two slots that differ in nothing but the number of the execution. -/
def SlotsAlike (same : ℕ → ℕ → Prop) (s t : RunSlot) : Prop :=
  same s.execution t.execution ∧ t = { s with execution := t.execution }

/-- **Two clusters that are alike for a job**, where `same e f` means that the number `e` in the one
stands for the same execution of the job as `f` in the other. -/
structure Alike (job : String) (same : ℕ → ℕ → Prop) (c d : Cluster) : Prop where
  left : c.Numbered
  right : d.Numbered
  executor : d.executor = c.executor
  store : Store.SameRows job c.store d.store
  slot : Option.Rel (SlotsAlike same) (c.slots.find? job) (d.slots.find? job)
  old : ∀ {e f}, same e f → e < c.nextExecution ∧ f < d.nextExecution
  inj : ∀ {e f e' f'}, same e f → same e' f' → (e' = e ↔ f' = f)
  published : ∀ {e f}, same e f → d.published.lookup f = c.published.lookup e
  tasks : ∀ {e f}, same e f → d.tasksOf f = (c.tasksOf e).map fun t => { t with execution := f }
  own : ∀ {e f}, same e f → ∀ t ∈ c.tasksOf e, t.job = job
  latest : ∀ {e f}, same e f → (c.latest.find? job = some e ↔ d.latest.find? job = some f)

namespace Alike

variable {c d : Cluster} {job : String} {same : ℕ → ℕ → Prop}

/-! ### The same answers -/

lemma findRecord (h : Alike job same c d) : d.findRecord job = c.findRecord job := by
  unfold Cluster.findRecord
  rw [h.store.getJob]

lemma checkResources (h : Alike job same c d) (rs : List Resource) :
    Operation.plan d (Operation.checkResources job rs)
      = Operation.plan c (Operation.checkResources job rs) :=
  plan_checkResources_congr h.store.getResource rs

/-- The slots of the job on both sides: none, or two that differ in a number. -/
lemma slot_cases (h : Alike job same c d) :
    (c.slots.find? job = none ∧ d.slots.find? job = none)
      ∨ ∃ s f, same s.execution f ∧ c.slots.find? job = some s
        ∧ d.slots.find? job = some { s with execution := f } := by
  have slot := h.slot
  generalize c.slots.find? job = mine at slot ⊢
  generalize d.slots.find? job = other at slot ⊢
  cases slot with
  | none => exact .inl ⟨rfl, rfl⟩
  | @some s t related =>
      obtain ⟨pair, eq⟩ := related
      exact .inr ⟨s, t.execution, pair, rfl, congrArg some eq⟩

open Operation in
/-- **A call on the job** gets the same answer and takes the same steps. -/
theorem plan_eq (h : Alike job same c d) (call : Call) (now : ℕ) :
    Operation.plan d (call.operation job now) = Operation.plan c (call.operation job now) := by
  cases call with
  | register config =>
      simp only [Call.operation, plan_map, plan_register, h.store.getJob]
  | deploy rs =>
      simp only [Call.operation, plan_map, plan_deploy, h.findRecord, h.checkResources]
  | submit graph =>
      simp only [Call.operation, plan_map, plan_submit, h.findRecord, h.store.listResources]
  | start =>
      simp only [Call.operation, plan_map, plan_start, h.findRecord, h.store.getGraph,
        h.store.listResources]
  | await =>
      simp only [Call.operation, plan_map, plan_storedOutcome, h.findRecord]
  | interrupt =>
      simp only [Call.operation, plan_map, plan_interrupt, h.findRecord]
      rcases h.slot_cases with ⟨here, there⟩ | ⟨s, f, -, here, there⟩
      · simp only [here, there]
      · simp only [here, there]
        rfl
  | destroy =>
      simp only [Call.operation, plan_map, plan_destroy]
  | accumulators =>
      simp only [Call.operation, plan_map, plan_accumulators, h.findRecord,
        h.store.getAccumulators]
      rcases h.slot_cases with ⟨here, there⟩ | ⟨s, f, -, here, there⟩
      · simp only [here, there]
      · simp only [here, there]

/-! ### The same changes -/

/-- A change to the store on both sides. -/
lemma withStore (h : Alike job same c d) {s t : Store} (store : Store.SameRows job s t) :
    Alike job same { c with store := s } { d with store := t } where
  left := ⟨h.left.tasks, h.left.slots, h.left.published⟩
  right := ⟨h.right.tasks, h.right.slots, h.right.published⟩
  executor := h.executor
  store := store
  slot := h.slot
  old := h.old
  inj := h.inj
  published := h.published
  tasks := h.tasks
  own := h.own
  latest := h.latest

/-- A change to the slot of the job that respects numbers. -/
lemma modifySlot (h : Alike job same c d) {f g : RunSlot → RunSlot}
    (keepsLeft : ∀ s, (f s).execution = s.execution)
    (keepsRight : ∀ t, (g t).execution = t.execution)
    (agree : ∀ {s t}, SlotsAlike same s t → SlotsAlike same (f s) (g t)) :
    Alike job same (c.modifySlot job f) (d.modifySlot job g) := by
  have slot : Option.Rel (SlotsAlike same) ((c.modifySlot job f).slots.find? job)
      ((d.modifySlot job g).slots.find? job) := by
    rw [modifySlot_find?, modifySlot_find?, if_pos rfl, if_pos rfl]
    have before := h.slot
    generalize c.slots.find? job = mine at before ⊢
    generalize d.slots.find? job = other at before ⊢
    cases before with
    | none => exact .none
    | some related => exact .some (agree related)
  have left := h.left.modifySlot job keepsLeft
  have right := h.right.modifySlot job keepsRight
  rw [modifySlot_eq] at left ⊢
  rw [modifySlot_eq d] at right ⊢
  exact ⟨left, right, h.executor, h.store, slot, h.old, h.inj, h.published, h.tasks, h.own, h.latest⟩

/-- A change to the tasks that respects numbers. -/
lemma mapTasks (h : Alike job same c d) {f g : RunTask → RunTask}
    (keepsLeft : ∀ t, (f t).execution = t.execution)
    (keepsRight : ∀ t, (g t).execution = t.execution)
    (keepsJob : ∀ t, t.job = job → (f t).job = job)
    (agree : ∀ {e n t}, same e n → t.execution = e → t.job = job →
      g { t with execution := n } = { f t with execution := n }) :
    Alike job same { c with tasks := c.tasks.map f } { d with tasks := d.tasks.map g } := by
  have tasksOf_map : ∀ (c : Cluster) {f : RunTask → RunTask} (e : ℕ),
      (∀ t, (f t).execution = t.execution) →
      ({ c with tasks := c.tasks.map f } : Cluster).tasksOf e = (c.tasksOf e).map f := by
    intro c f e keeps
    simp only [tasksOf, List.filter_map]
    congr 1
    simp [Function.comp_def, keeps]
  have tasks : ∀ {e n}, same e n →
      ({ d with tasks := d.tasks.map g } : Cluster).tasksOf n
        = (({ c with tasks := c.tasks.map f } : Cluster).tasksOf e).map
            fun t => { t with execution := n } := by
    intro e n pair
    rw [tasksOf_map d n keepsRight, tasksOf_map c e keepsLeft, h.tasks pair]
    simp only [List.map_map, List.map_inj_left, Function.comp_apply]
    intro t member
    exact agree pair (mem_tasksOf.mp member).2 (h.own pair t member)
  have own : ∀ {e n}, same e n →
      ∀ t ∈ ({ c with tasks := c.tasks.map f } : Cluster).tasksOf e, t.job = job := by
    intro e n pair t member
    rw [tasksOf_map c e keepsLeft] at member
    obtain ⟨u, before, rfl⟩ := List.mem_map.mp member
    exact keepsJob u (h.own pair u before)
  refine ⟨⟨?_, h.left.slots, h.left.published⟩, ⟨?_, h.right.slots, h.right.published⟩, h.executor,
    h.store, h.slot, h.old, h.inj, h.published, tasks, own, h.latest⟩
  · intro t member
    obtain ⟨u, before, rfl⟩ := List.mem_map.mp member
    rw [keepsLeft]
    exact h.left.tasks u before
  · intro t member
    obtain ⟨u, before, rfl⟩ := List.mem_map.mp member
    rw [keepsRight]
    exact h.right.tasks u before

/-- A choice of tasks that respects numbers. -/
lemma filterTasks (h : Alike job same c d) {p q : RunTask → Bool}
    (agree : ∀ {e n t}, same e n → t.execution = e → q { t with execution := n } = p t) :
    Alike job same { c with tasks := c.tasks.filter p } { d with tasks := d.tasks.filter q } := by
  have tasksOf_filter : ∀ (c : Cluster) {p : RunTask → Bool} (e : ℕ),
      ({ c with tasks := c.tasks.filter p } : Cluster).tasksOf e = (c.tasksOf e).filter p := by
    intro c p e
    simp only [tasksOf, List.filter_filter, Bool.and_comm]
  have tasks : ∀ {e n}, same e n →
      ({ d with tasks := d.tasks.filter q } : Cluster).tasksOf n
        = (({ c with tasks := c.tasks.filter p } : Cluster).tasksOf e).map
            fun t => { t with execution := n } := by
    intro e n pair
    rw [tasksOf_filter, tasksOf_filter, h.tasks pair, List.filter_map]
    congr 1
    refine List.filter_congr ?_
    intro t member
    exact agree pair (mem_tasksOf.mp member).2
  have own : ∀ {e n}, same e n →
      ∀ t ∈ ({ c with tasks := c.tasks.filter p } : Cluster).tasksOf e, t.job = job := by
    intro e n pair t member
    rw [tasksOf_filter] at member
    exact h.own pair t (List.mem_filter.mp member).1
  refine ⟨⟨?_, h.left.slots, h.left.published⟩, ⟨?_, h.right.slots, h.right.published⟩, h.executor,
    h.store, h.slot, h.old, h.inj, h.published, tasks, own, h.latest⟩
  · intro t member
    exact h.left.tasks t (List.mem_filter.mp member).1
  · intro t member
    exact h.right.tasks t (List.mem_filter.mp member).1

/-! ### Steps -/

/-- The next numbers on both sides stand for the execution that is launched next. -/
def pairNext (c d : Cluster) (same : ℕ → ℕ → Prop) (e f : ℕ) : Prop :=
  same e f ∨ e = c.nextExecution ∧ f = d.nextExecution

lemma launch (h : Alike job same c d) {context : ExecutionContext} (here : context.job = job) :
    Alike job (pairNext c d same) (c.launch context) (d.launch context) := by
  have tasksOf_launch : ∀ (c : Cluster) (e : ℕ), (c.launch context).tasksOf e
      = c.tasksOf e ++ if c.nextExecution = e then
          [⟨c.nextExecution, context.job, false, .working (c.executor context).work⟩] else [] := by
    intro c e
    simp only [tasksOf, Cluster.launch, List.filter_append]
    congr 1
    split_ifs with new <;> simp [new]
  constructor
  case left => exact h.left.launch context
  case right => exact h.right.launch context
  case executor => exact h.executor
  case store => exact h.store
  case slot =>
    rw [launch_find?, launch_find?, if_pos here, if_pos here]
    exact .some ⟨.inr ⟨rfl, rfl⟩, by rw [h.executor]⟩
  case old =>
    rintro e f (pair | ⟨rfl, rfl⟩)
    · exact (h.old pair).imp Nat.lt_succ_of_lt Nat.lt_succ_of_lt
    · exact ⟨Nat.lt_succ_self _, Nat.lt_succ_self _⟩
  case inj =>
    rintro e f e' f' (pair | ⟨rfl, rfl⟩) (pair' | ⟨rfl, rfl⟩)
    · exact h.inj pair pair'
    · have := h.old pair
      constructor <;> omega
    · have := h.old pair'
      constructor <;> omega
    · simp
  case published =>
    rintro e f (pair | ⟨rfl, rfl⟩)
    · exact h.published pair
    · exact h.right.lookup_next.trans h.left.lookup_next.symm
  case tasks =>
    rintro e f (pair | ⟨rfl, rfl⟩)
    · have := h.old pair
      rw [tasksOf_launch, tasksOf_launch, if_neg (by omega), if_neg (by omega), h.tasks pair]
      simp
    · rw [tasksOf_launch, tasksOf_launch, h.left.tasksOf_next, h.right.tasksOf_next, h.executor]
      simp
  case own =>
    rintro e f (pair | ⟨rfl, rfl⟩) t member
    · have := h.old pair
      rw [tasksOf_launch, if_neg (by omega), List.append_nil] at member
      exact h.own pair t member
    · rw [tasksOf_launch, h.left.tasksOf_next] at member
      obtain rfl : t = _ := by simpa using member
      exact here
  case latest =>
    rintro e f (pair | ⟨rfl, rfl⟩)
    · have := h.old pair
      simp only [Cluster.launch, here, Table.find?_insert, if_true, Option.some.injEq]
      constructor <;> omega
    · simp [Cluster.launch, here]

lemma requestInterrupt (h : Alike job same c d) :
    Alike job same (c.requestInterrupt job) (d.requestInterrupt job) := by
  refine h.modifySlot (fun _ => rfl) (fun _ => rfl) ?_
  rintro s t ⟨pair, eq⟩
  rw [eq]
  exact ⟨pair, rfl⟩

lemma removeSlot (h : Alike job same c d) :
    Alike job same (c.removeSlot job) (d.removeSlot job) := by
  rcases h.slot_cases with ⟨here, there⟩ | ⟨s, f, pair, here, there⟩
  · simp only [Cluster.removeSlot, here, there]
    exact h
  · have stopped := h.filterTasks
      (p := fun t => !(t.execution = s.execution && RunTask.isWorking t))
      (q := fun t => !(t.execution = f && RunTask.isWorking t)) (by
        rintro e n t pair' rfl
        simp [h.inj pair pair', RunTask.isWorking])
    have left := h.left.removeSlot job
    have right := h.right.removeSlot job
    simp only [Cluster.removeSlot, here, there] at left right ⊢
    refine ⟨left, right, h.executor, h.store, ?_, h.old, h.inj, h.published, stopped.tasks,
      stopped.own, h.latest⟩
    simp

lemma setOutcome (h : Alike job same c d) (outcome : Job.Outcome) :
    Alike job same (c.setOutcome job outcome) (d.setOutcome job outcome) := by
  have told := h.modifySlot (f := fun slot => { slot with outcome := some outcome })
    (g := fun slot => { slot with outcome := some outcome }) (fun _ => rfl) (fun _ => rfl) (by
      rintro s t ⟨pair, eq⟩
      rw [eq]
      exact ⟨pair, rfl⟩)
  have left := h.left.setOutcome job outcome
  have right := h.right.setOutcome job outcome
  rw [setOutcome_eq_modifySlot] at left right ⊢
  rw [setOutcome_eq_modifySlot]
  refine ⟨left, right, told.executor, told.store, told.slot, told.old, told.inj, ?_, told.tasks,
    told.own, told.latest⟩
  intro e n pair'
  rcases h.slot_cases with ⟨here, there⟩ | ⟨s, f, pair, here, there⟩
  · simp only [here, there]
    exact h.published pair'
  · simp only [here, there, List.lookup_cons]
    have := h.inj pair pair'
    by_cases own : e = s.execution
    · simp [own, this.mp own]
    · have other : n ≠ f := fun eq => own (this.mpr eq)
      rw [beq_false_of_ne own, beq_false_of_ne other]
      exact h.published pair'

/-- A step that leaves the slots of other jobs alone. -/
def StaysWith (job : String) : Action → Prop
  | .launch context => context.job = job
  | .requestInterrupt key | .removeSlot key | .setOutcome key _ => key = job
  | _ => True

/-- A step that launches nothing, on both sides. -/
lemma perform_quiet (h : Alike job same c d) {a : Action} (stays : StaysWith job a)
    (quiet : ∀ context, a ≠ .launch context) : Alike job same (a.perform c).2 (a.perform d).2 := by
  cases a
  case launch context => exact absurd rfl (quiet context)
  case requestInterrupt key =>
    obtain rfl : key = job := stays
    exact h.requestInterrupt
  case removeSlot key =>
    obtain rfl : key = job := stays
    exact h.removeSlot
  case setOutcome key outcome =>
    obtain rfl : key = job := stays
    exact h.setOutcome outcome
  case putJob r => exact h.withStore (h.store.putJob r)
  case putResources key rs => exact h.withStore (h.store.putResources key rs)
  case putGraph key g => exact h.withStore (h.store.putGraph key g)
  case putAccumulators key a => exact h.withStore (h.store.putAccumulators key a)
  case purge key => exact h.withStore (h.store.purge key)
  all_goals exact h

/-- **One step on both sides.**  The numbers that are given stand for each other. -/
theorem perform (h : Alike job same c d) {a : Action} (stays : StaysWith job a) :
    ∃ next, (∀ {e f}, same e f → next e f) ∧ Alike job next (a.perform c).2 (a.perform d).2
      ∧ List.Forall₂ next (c.launched (a.perform c).2) (d.launched (a.perform d).2) := by
  by_cases launches : ∃ context, a = .launch context
  · obtain ⟨context, rfl⟩ := launches
    refine ⟨_, .inl, h.launch stays, ?_⟩
    show List.Forall₂ _ (c.launched (c.launch context)) (d.launched (d.launch context))
    rw [launched_launch, launched_launch]
    exact .cons (.inr ⟨rfl, rfl⟩) .nil
  · have quiet : ∀ context, a ≠ .launch context := fun context eq => launches ⟨context, eq⟩
    refine ⟨same, id, h.perform_quiet stays quiet, ?_⟩
    rw [launched_of_eq (perform_next_old quiet), launched_of_eq (perform_next_old quiet)]
    exact .nil

/-- **The same steps on both sides.** -/
theorem after (h : Alike job same c d) {actions : List Action}
    (stays : ∀ a ∈ actions, StaysWith job a) :
    ∃ next, (∀ {e f}, same e f → next e f) ∧ Alike job next (c.after actions) (d.after actions)
      ∧ List.Forall₂ next (c.launched (c.after actions)) (d.launched (d.after actions)) := by
  induction actions generalizing c d same with
  | nil => exact ⟨same, id, h, by simp [launched]⟩
  | cons a rest ih =>
      obtain ⟨middle, first, alike, launched⟩ := h.perform (stays a List.mem_cons_self)
      obtain ⟨next, second, alike, launched'⟩ :=
        ih alike fun b member => stays b (List.mem_cons_of_mem a member)
      refine ⟨next, fun pair => second (first pair), alike, ?_⟩
      rw [after_cons, after_cons, ← launched_append (perform_next_le c a) (after_next_le _ rest),
        ← launched_append (perform_next_le d a) (after_next_le _ rest)]
      exact List.rel_append (launched.imp fun _ _ pair => second pair) launched'

/-- Calls on a job leave the slots of other jobs alone. -/
lemma staysWith_effect {call : Call} {actions : List Action} (effect : c.Effect job call actions) :
    ∀ a ∈ actions, StaysWith job a := by
  cases effect <;> simp [StaysWith]

/-! ### Tasks -/

lemma replaceTask (h : Alike job same c d) {t : RunTask} {f : ℕ} (pair : same t.execution f)
    (here : t.job = job) :
    Alike job same (c.replaceTask t) (d.replaceTask { t with execution := f }) := by
  refine h.mapTasks (fun u => ?_) (fun u => ?_) (fun u own => ?_) ?_
  · split_ifs with eq
    · exact eq.symm
    · rfl
  · split_ifs with eq
    · exact eq.symm
    · rfl
  · split_ifs
    · exact here
    · exact own
  · rintro e n u pair' rfl own
    have := h.inj pair pair'
    by_cases left : u.execution = t.execution
    · simp [left, this.mp left]
    · simp only
      rw [if_neg left, if_neg fun right => left (this.mpr right)]

lemma putCounters (h : Alike job same c d) {t : RunTask} {f : ℕ} (pair : same t.execution f)
    (here : t.job = job) (a : Accumulators) :
    Alike job same (c.putCounters t a) (d.putCounters { t with execution := f } a) := by
  subst here
  rw [putCounters_eq_modifySlot, putCounters_eq_modifySlot]
  refine h.modifySlot (fun s => ?_) (fun s => ?_) ?_
  · split_ifs <;> rfl
  · split_ifs <;> rfl
  · rintro s u ⟨pair', eq⟩
    have := h.inj pair pair'
    rw [eq]
    by_cases own : s.execution = t.execution
    · rw [if_pos own, if_pos (this.mp own)]
      exact ⟨pair', rfl⟩
    · rw [if_neg own, if_neg fun there => own (this.mpr there)]
      exact ⟨pair', rfl⟩

lemma isInterrupted (h : Alike job same c d) {t : RunTask} {f : ℕ} (pair : same t.execution f)
    (here : t.job = job) :
    d.isInterrupted { t with execution := f } = c.isInterrupted t := by
  subst here
  rcases h.slot_cases with ⟨mine, other⟩ | ⟨s, n, pair', mine, other⟩
  · simp [Cluster.isInterrupted, mine, other]
  · simp [Cluster.isInterrupted, mine, other, h.inj pair pair']

lemma countersOf (h : Alike job same c d) {t : RunTask} {f : ℕ} (pair : same t.execution f)
    (here : t.job = job) : d.countersOf { t with execution := f } = c.countersOf t := by
  subst here
  rcases h.slot_cases with ⟨mine, other⟩ | ⟨s, n, pair', mine, other⟩
  · simp [Cluster.countersOf, mine, other]
  · simp [Cluster.countersOf, mine, other, h.inj pair pair']

/-- The tasks of an execution on both sides. -/
lemma findTask (h : Alike job same c d) {e f : ℕ} (pair : same e f) :
    (c.findTask e = none ∧ d.findTask f = none)
      ∨ ∃ t, t.execution = e ∧ t.job = job ∧ c.findTask e = some t
        ∧ d.findTask f = some { t with execution := f } := by
  rw [findTask_eq_head?, findTask_eq_head?, h.tasks pair]
  cases tasks : c.tasksOf e with
  | nil => simp
  | cons t rest =>
      have member : t ∈ c.tasksOf e := by simp [tasks]
      exact .inr ⟨t, (mem_tasksOf.mp member).2, h.own pair t member, by simp, by simp⟩

/-- A task on both sides goes as far as it can. -/
lemma resolveTask (h : Alike job same c d) {t : RunTask} {f : ℕ} (pair : same t.execution f)
    (here : t.job = job) :
    Alike job same (c.resolveTask t) (d.resolveTask { t with execution := f }) := by
  obtain ⟨e, key, gateOpen, phase⟩ := t
  unfold Cluster.resolveTask
  cases phase with
  | resolved result => exact h
  | working work =>
      have interrupted := h.isInterrupted pair here
      have counters := h.countersOf pair here
      simp only at interrupted counters ⊢
      rw [interrupted, counters]
      generalize c.countersOf ⟨e, key, gateOpen, .working work⟩ = a
      split_ifs
      · exact h.replaceTask (t := ⟨e, key, gateOpen, .resolved none⟩) pair here
      · have written := h.putCounters pair here (work.advance gateOpen a).2
        cases (work.advance gateOpen a).1.result? with
        | some result =>
            exact written.replaceTask (t := ⟨e, key, gateOpen, .resolved (some result)⟩) pair here
        | none => exact written.replaceTask (t := ⟨e, key, gateOpen, .working _⟩) pair here

lemma resolved (h : Alike job same c d) {e f : ℕ} (pair : same e f) :
    Alike job same (c.resolved e) (d.resolved f) := by
  unfold Cluster.resolved
  rcases h.findTask pair with ⟨mine, other⟩ | ⟨t, rfl, here, mine, other⟩
  · rw [mine, other]
    exact h
  · rw [mine, other]
    exact h.resolveTask pair here

/-- **A publication** takes the same steps on both sides. -/
lemma publication (h : Alike job same c d) {e f : ℕ} (pair : same e f) (now : ℕ) :
    d.publication f now = c.publication e now ∧ ∀ a ∈ c.publication e now, StaysWith job a := by
  unfold Cluster.publication
  rcases h.findTask pair with ⟨mine, other⟩ | ⟨t, -, rfl, mine, other⟩
  · simp [mine, other]
  · simp only [mine, other]
    cases t.phase with
    | working work => simp
    | resolved result =>
        simp only [Operation.plan_publish, Operation.plan_persist, h.store.getJob]
        rcases h.slot_cases with ⟨here, there⟩ | ⟨s, n, -, here, there⟩
        · simp [here, there]
        · simp only [here, there, true_and]
          rcases c.store.getJob t.job with e | _ | r <;> simp [StaysWith]

lemma retire (h : Alike job same c d) {e f : ℕ} (pair : same e f) :
    Alike job same (c.retire e) (d.retire f) := by
  unfold Cluster.retire
  rcases h.findTask pair with ⟨mine, other⟩ | ⟨t, rfl, -, mine, other⟩
  · rw [mine, other]
    exact h
  · simp only [mine, other]
    cases t.phase with
    | working work => exact h
    | resolved result =>
        refine h.filterTasks ?_
        rintro e n u pair' rfl
        simp [h.inj pair pair']

/-- **A task publishes** on both sides. -/
theorem publish (h : Alike job same c d) {e f : ℕ} (pair : same e f) (now : UInt64) :
    ∃ next, (∀ {e f}, same e f → next e f)
      ∧ Alike job next (c.react (.publish e now)) (d.react (.publish f now)) := by
  rw [react_publish_eq, react_publish_eq]
  obtain ⟨steps, stays⟩ := h.publication pair now.toNat
  rw [steps]
  obtain ⟨next, keeps, published, -⟩ := h.after stays
  exact ⟨next, keeps, published.retire (keeps pair)⟩

/-- Somebody writes to the counters of an execution on both sides. -/
lemma writeSink (h : Alike job same c d) {e f : ℕ} (pair : same e f) (w : SinkWrite) :
    Alike job same (c.writeSink e w) (d.writeSink f w) := by
  refine ⟨h.left.writeSink e w, h.right.writeSink f w, h.executor, h.store, ?_, h.old, h.inj,
    h.published, h.tasks, h.own, h.latest⟩
  rw [writeSink_find?, writeSink_find?]
  rcases h.slot_cases with ⟨mine, other⟩ | ⟨s, n, pair', mine, other⟩
  · rw [mine, other]
    exact .none
  · have number := h.inj pair pair'
    rw [mine, other]
    refine .some ?_
    simp only
    by_cases own : s.execution = e
    · rw [if_pos own, if_pos (number.mp own)]
      exact ⟨pair', rfl⟩
    · rw [if_neg own, if_neg fun there => own (number.mpr there)]
      exact ⟨pair', rfl⟩

/-- What the latest execution of the job waits for comes on both sides. -/
lemma openGate (h : Alike job same c d) :
    Alike job same (c.openGate job).2 (d.openGate job).2 := by
  rw [openGate_eq, openGate_eq]
  refine h.mapTasks (fun t => ?_) (fun t => ?_) (fun t own => ?_) ?_
  · split_ifs <;> rfl
  · split_ifs <;> rfl
  · split_ifs <;> exact own
  · rintro e n t pair rfl -
    have := h.latest pair
    by_cases here : c.latest.find? job = some t.execution
    · simp [here, this.mp here]
    · simp only
      rw [if_neg here, if_neg fun there => here (this.mpr there)]

/-- A restart on both sides. -/
lemma restart (h : Alike job same c d) : Alike job same c.restart d.restart where
  left := .restart
  right := .restart
  executor := h.executor
  store := h.store
  slot := .none
  old := h.old
  inj := h.inj
  published := by simp [Cluster.restart]
  tasks := by simp [Cluster.restart, tasksOf]
  own := by simp [Cluster.restart, tasksOf]
  latest := by simp [Cluster.restart]

end Alike

end Cluster

end ControlPlane
