import Mathlib
import ControlPlane.Proofs.Cluster.Alike
import ControlPlane.Client.Control

/-!
# Where a job stands in a cluster

What a cluster knows about a job is in three places, its record, its slot and its tasks, and a state of
the job says how they look.  A task may have resolved and not yet have published, and a job may be half
destroyed: this is about the time between any two steps, not only between two calls.

* `Cluster.Holds` — a slot, with the record and the tasks that belong to it.
* `Cluster.Stands` — what the cluster holds of a job that is in a state.
* `Cluster.Spares` — nothing has happened to a job from one cluster to another.  The steps of other jobs
  spare it, and so does every task that resolves.
* `Cluster.Goes` — a job stands as before, and its execution has not been exchanged for another.  The
  publication of its own task goes this far.
* `Stands.effect` — an acknowledged call leaves the job in the state that its event leads to.
-/

namespace ControlPlane

open Job (State)

/-- The job that a step writes about, if it writes about one. -/
def Action.subject? : Action → Option String
  | putJob r => some r.name
  | putResources job _ | putGraph job _ | putAccumulators job _ | purge job | requestInterrupt job
  | removeSlot job | setOutcome job _ => some job
  | launch context => some context.job
  | _ => none

/-- The numbers in a record that a step writes fit in their words. -/
def Action.Fits : Action → Prop
  | putJob r => r.Fits
  | _ => True

/-- A slot without its counters. -/
def RunSlot.bare (s : RunSlot) : RunSlot := { s with accumulators := .empty }

@[simp] lemma RunSlot.bare_execution (s : RunSlot) : s.bare.execution = s.execution := rfl
@[simp] lemma RunSlot.bare_interrupted (s : RunSlot) : s.bare.interrupted = s.interrupted := rfl
@[simp] lemma RunSlot.bare_outcome (s : RunSlot) : s.bare.outcome = s.outcome := rfl

/-- The state to which an outcome leads. -/
def Control.stateOf : Job.Outcome → State
  | .completed => .completed
  | .failed _ => .failed
  | .interrupted => .interrupted

open Operation in
/-- **A call is acknowledged** exactly when it has changed something. -/
lemma Intent.actions_eq_nil_iff (i : Intent) (c : Cluster) (job : String) (now : ℕ) :
    i.call.actions c job now = [] ↔ ∃ e, (plan c (i.call.operation job now)).1 = .error e := by
  unfold Call.actions
  cases i <;> simp only [Intent.call, Call.operation, plan_map, plan_register, plan_deploy,
    plan_submit, plan_start, plan_interrupt, plan_destroy]
  all_goals (repeat' split) <;> simp_all [Except.map]

namespace Cluster

/-- The slot of a job, without its counters. -/
def run? (c : Cluster) (job : String) : Option RunSlot := (c.slots.find? job).map RunSlot.bare

lemma run?_eq_none {c : Cluster} {job : String} :
    c.run? job = none ↔ c.slots.find? job = none := by
  simp [run?]

lemma run?_eq_some {c : Cluster} {job : String} {s : RunSlot} :
    c.run? job = some s ↔ ∃ slot, c.slots.find? job = some slot ∧ slot.bare = s :=
  Option.map_eq_some_iff

/-- Only counters are written. -/
lemma run?_putCounters (c : Cluster) (t : RunTask) (a : Accumulators) (key : String) :
    (c.putCounters t a).run? key = c.run? key := by
  simp only [putCounters_eq_modifySlot, run?, modifySlot_find?]
  split_ifs
  · rw [Option.map_map]
    congr 1
    funext slot
    simp only [Function.comp]
    split_ifs <;> rfl
  · rfl

/-! ## Standing -/

/-- No execution of a job is known. -/
structure Idle (c : Cluster) (job : String) : Prop where
  free : c.run? job = none
  tasks : ∀ t ∈ c.tasks, t.job ≠ job

/-- A job that has not been started, with the status of its record. -/
def Waits (c : Cluster) (job : String) (status : JobStatus) : Prop :=
  ∃ r, c.Stores job r ∧ r.Sound job ∧ r.status = status ∧ c.Idle job

/-- **A slot of a job**, with the record and the tasks that belong to it. -/
structure Holds (c : Cluster) (job : String) (s : RunSlot) : Prop where
  found : c.run? job = some s
  /-- No other job has an execution of this number. -/
  alone : ∀ {key other}, c.run? key = some other → other.execution = s.execution → key = job
  recorded : ∃ r, c.Stores job r ∧ r.Sound job ∧ r.Tells s.outcome
  told : c.published.lookup s.execution = s.outcome
  /-- A task that is left is that of the slot, and will publish its outcome. -/
  tasks : ∀ t ∈ c.tasks, t.job = job → t.execution = s.execution ∧ s.outcome = none

/-- **What a cluster holds of a job** that is in a state. -/
def Stands (c : Cluster) (job : String) : State → Prop
  | .unstarted => c.Lacks job ∧ c.Idle job
  | .initialized => c.Waits job .registered
  | .deployed => c.Waits job .deployed
  | .submitted => c.Waits job .submitted
  | .running => ∃ s, c.Holds job s
  | .completed => ∃ s, c.Holds job s ∧ s.outcome = some .completed
  | .failed => ∃ s reason, c.Holds job s ∧ s.outcome = some (.failed reason)
  | .interrupted => ∃ s, c.Holds job s
      ∧ (s.outcome = some .interrupted ∨ s.outcome = none ∧ s.interrupted = true)
  | .destroyed => c.Lacks job ∧ c.run? job = none

/-! ## Steps that spare a job -/

/-- **Nothing has happened to a job** from one cluster to the other.  Other jobs may have got new
executions, and these have got new numbers. -/
structure Spares (job : String) (c d : Cluster) : Prop where
  record : d.store.getJob job = c.store.getJob job
  run : d.run? job = c.run? job
  tasks : ∀ t ∈ d.tasks, t.job = job → ∃ u ∈ c.tasks, u.job = job ∧ u.execution = t.execution
  next : c.nextExecution ≤ d.nextExecution
  others : ∀ {key other}, key ≠ job → d.run? key = some other →
    (∃ before, c.run? key = some before ∧ before.execution = other.execution)
      ∨ c.nextExecution ≤ other.execution
  /-- Nothing is published under a number that no other job has. -/
  published : ∀ {n}, n < c.nextExecution →
    (∀ {key other}, key ≠ job → c.run? key = some other → other.execution ≠ n) →
    d.published.lookup n = c.published.lookup n

namespace Spares

variable {c d e : Cluster} {job : String}

/-- A step that leaves the other jobs their slots, if not their flags. -/
lemma of_slots (record : d.store.getJob job = c.store.getJob job) (run : d.run? job = c.run? job)
    (tasks : ∀ t ∈ d.tasks, t.job = job → ∃ u ∈ c.tasks, u.job = job ∧ u.execution = t.execution)
    (next : d.nextExecution = c.nextExecution) (published : d.published = c.published)
    (others : ∀ {key other}, d.run? key = some other →
      ∃ before, c.run? key = some before ∧ before.execution = other.execution) : Spares job c d where
  record := record
  run := run
  tasks := tasks
  next := next.ge
  others := fun _ found => .inl (others found)
  published := fun _ _ => by rw [published]

lemma refl (job : String) (c : Cluster) : Spares job c c :=
  .of_slots rfl rfl (fun t member own => ⟨t, member, own, rfl⟩) rfl rfl fun found => ⟨_, found, rfl⟩

lemma trans (first : Spares job c d) (second : Spares job d e) : Spares job c e where
  record := second.record.trans first.record
  run := second.run.trans first.run
  tasks := by
    intro t member own
    obtain ⟨u, before, mine, same⟩ := second.tasks t member own
    obtain ⟨v, before', mine', same'⟩ := first.tasks u before mine
    exact ⟨v, before', mine', same'.trans same⟩
  next := first.next.trans second.next
  others := by
    intro key other apart found
    rcases second.others apart found with ⟨between, found', same⟩ | new
    · rcases first.others apart found' with ⟨before, found'', same'⟩ | new
      · exact .inl ⟨before, found'', same'.trans same⟩
      · exact .inr (same ▸ new)
    · exact .inr (first.next.trans new)
  published := by
    intro n old clear
    rw [second.published (old.trans_le first.next), first.published old clear]
    intro key other apart found
    rcases first.others apart found with ⟨before, found', same⟩ | new
    · exact same ▸ clear apart found'
    · omega

/-- A new execution of another job. -/
lemma launch {context : ExecutionContext} (other : context.job ≠ job) :
    Spares job c (c.launch context) where
  record := rfl
  run := by simp [run?, other]
  tasks := by
    intro t member own
    rcases List.mem_append.mp member with before | new
    · exact ⟨t, before, own, rfl⟩
    · obtain rfl := List.mem_singleton.mp new
      exact absurd own other
  next := Nat.le_succ _
  others := by
    intro key slot _ found
    simp only [run?, launch_find?] at found
    split_ifs at found
    · obtain rfl := Option.some.inj found
      exact .inr le_rfl
    · exact .inl ⟨slot, found, rfl⟩
  published := fun _ _ => rfl

/-- An outcome in the slot of another job. -/
lemma setOutcome {key : String} (other : key ≠ job) (outcome : Job.Outcome) :
    Spares job c (c.setOutcome key outcome) := by
  rw [setOutcome_eq_modifySlot]
  constructor
  case record => simp
  case run => simp [run?, other]
  case tasks =>
    intro t member own
    exact ⟨t, by simpa using member, own, rfl⟩
  case next => simp
  case others =>
    intro key' slot _ found
    simp only [run?, modifySlot_find?] at found
    split_ifs at found
    · obtain ⟨before, found', rfl⟩ : ∃ before, c.slots.find? key' = some before
          ∧ RunSlot.bare { before with outcome := some outcome } = slot := by
        simpa using found
      exact .inl ⟨before.bare, by simp [run?, found'], rfl⟩
    · exact .inl ⟨slot, found, rfl⟩
  case published =>
    intro n _ clear
    cases found : c.slots.find? key with
    | none => rfl
    | some slot =>
        have apart := clear other (run?_eq_some.mpr ⟨slot, found, rfl⟩)
        simp [List.lookup_cons, show (n == slot.execution) = false by simpa using Ne.symm apart]

/-- A change to a slot that leaves it its execution, in the slot of another job. -/
lemma modifySlot {key : String} (other : key ≠ job) {f : RunSlot → RunSlot}
    (execution : ∀ slot, (f slot).execution = slot.execution) : Spares job c (c.modifySlot key f) := by
  refine .of_slots (by simp) (by simp [run?, other]) ?_ (by simp) (by simp) ?_
  · intro t member own
    exact ⟨t, by simpa using member, own, rfl⟩
  · intro key' slot found
    simp only [run?, modifySlot_find?] at found
    split_ifs at found
    · obtain ⟨before, found', rfl⟩ : ∃ before, c.slots.find? key' = some before
          ∧ (f before).bare = slot := by simpa using found
      exact ⟨before.bare, by simp [run?, found'], (execution before).symm⟩
    · exact ⟨slot, found, rfl⟩

lemma removeSlot {key : String} (other : key ≠ job) : Spares job c (c.removeSlot key) := by
  refine .of_slots (by simp) (by simp [run?, other]) ?_ (by simp) (by simp) ?_
  · intro t member own
    unfold Cluster.removeSlot at member
    split at member
    · exact ⟨t, (List.mem_filter.mp member).1, own, rfl⟩
    · exact ⟨t, member, own, rfl⟩
  · intro key' slot found
    simp only [run?, removeSlot_find?] at found
    split_ifs at found
    · simp at found
    · exact ⟨slot, found, rfl⟩

/-- A step that only the store notices. -/
lemma store {s : Store} (record : s.getJob job = c.store.getJob job) :
    Spares job c { c with store := s } :=
  .of_slots record rfl (fun t member own => ⟨t, member, own, rfl⟩) rfl rfl fun found => ⟨_, found, rfl⟩

/-- **A step that writes about another job**, or that only looks. -/
theorem perform {a : Action} (elsewhere : a.subject? ≠ some job) (c : Cluster) :
    Spares job c (a.perform c).2 := by
  cases a
  case putJob r => exact .store (Store.getJob_putJob_of_ne _ (by simpa [Action.subject?] using elsewhere))
  case purge key =>
    have other : job ≠ key := by
      rintro rfl
      exact elsewhere rfl
    exact .store ((Store.getJob_purge ..).trans (if_neg other))
  case putResources | putGraph | putAccumulators => exact .store (Store.getJob_congr rfl)
  case launch context => exact .launch (by simpa [Action.subject?] using elsewhere)
  case requestInterrupt key =>
    exact .modifySlot (by simpa [Action.subject?] using elsewhere) fun _ => rfl
  case removeSlot key => exact .removeSlot (by simpa [Action.subject?] using elsewhere)
  case setOutcome key outcome => exact .setOutcome (by simpa [Action.subject?] using elsewhere) outcome
  all_goals exact .refl job c

lemma after {actions : List Action} (elsewhere : ∀ a ∈ actions, a.subject? ≠ some job) (c : Cluster) :
    Spares job c (c.after actions) := by
  induction actions generalizing c with
  | nil => exact .refl job c
  | cons a rest ih =>
      have first := perform (elsewhere a List.mem_cons_self) c
      exact first.trans (ih (fun b member => elsewhere b (List.mem_cons_of_mem a member)) _)

/-- Tasks that have gone. -/
lemma filter (p : RunTask → Bool) : Spares job c { c with tasks := c.tasks.filter p } :=
  .of_slots rfl rfl (fun t member own => ⟨t, (List.mem_filter.mp member).1, own, rfl⟩) rfl rfl
    fun found => ⟨_, found, rfl⟩

/-- **A task that is carried on**, whosever it is: only its counters are written, and its phase. -/
theorem resolved (c : Cluster) (execution : ℕ) : Spares job c (c.resolved execution) := by
  unfold Cluster.resolved
  cases found : c.findTask execution with
  | none => exact .refl job c
  | some t =>
      have member := List.mem_of_find?_eq_some found
      cases phase : t.phase with
      | resolved result => simpa [resolveTask, phase] using refl job c
      | working work =>
          obtain ⟨a, next, eq, -⟩ := c.resolveTask_eq phase
          simp only
          rw [eq]
          have bare := c.run?_putCounters t a
          refine .of_slots (by simp) (bare job) ?_ (putCounters_nextExecution ..)
            (putCounters_published ..) fun {key other} found => ⟨other, (bare key).symm.trans found, rfl⟩
          intro u member' own
          obtain ⟨v, before, rfl⟩ := List.mem_map.mp member'
          rw [putCounters_tasks] at before
          split_ifs at own ⊢ with same
          · exact ⟨t, member, own, rfl⟩
          · exact ⟨v, before, own, rfl⟩

/-- A write to counters, whosever they are. -/
lemma writeSink (c : Cluster) (execution : ℕ) (w : SinkWrite) :
    Spares job c (c.writeSink execution w) := by
  have bare : ∀ key, (c.writeSink execution w).run? key = c.run? key := by
    intro key
    rw [run?, writeSink_find?, Option.map_map, run?]
    congr 1
    funext slot
    simp only [Function.comp]
    split_ifs <;> rfl
  exact .of_slots rfl (bare job) (fun t member own => ⟨t, member, own, rfl⟩) rfl rfl
    fun {key other} found => ⟨other, (bare key).symm.trans found, rfl⟩

lemma openGate (c : Cluster) (key : String) : Spares job c (c.openGate key).2 := by
  unfold Cluster.openGate
  split
  · refine .of_slots rfl rfl ?_ rfl rfl fun found => ⟨_, found, rfl⟩
    intro t member own
    obtain ⟨u, before, rfl⟩ := List.mem_map.mp member
    split_ifs at own ⊢ <;> exact ⟨u, before, own, rfl⟩
  · exact .refl job c

end Spares

/-! ### What a spared job keeps -/

variable {c d : Cluster} {job : String}

lemma Idle.spares (h : c.Idle job) (spares : Spares job c d) : d.Idle job where
  free := spares.run.trans h.free
  tasks := by
    intro t member own
    obtain ⟨u, before, mine, -⟩ := spares.tasks t member own
    exact h.tasks u before mine

lemma Waits.spares {status : JobStatus} (h : c.Waits job status) (spares : Spares job c d) :
    d.Waits job status := by
  obtain ⟨r, stored, sound, at_, idle⟩ := h
  exact ⟨r, spares.record.trans stored, sound, at_, idle.spares spares⟩

lemma Numbered.run {s : RunSlot} (h : c.Numbered) (found : c.run? job = some s) :
    s.execution < c.nextExecution := by
  obtain ⟨slot, there, rfl⟩ := run?_eq_some.mp found
  have old := h.slots there
  exact old

lemma Holds.spares {s : RunSlot} (h : c.Holds job s) (numbered : c.Numbered)
    (spares : Spares job c d) : d.Holds job s := by
  have old := numbered.run h.found
  constructor
  case found => exact spares.run.trans h.found
  case alone =>
    intro key other found same
    by_contra apart
    rcases spares.others apart found with ⟨before, found', same'⟩ | new
    · exact apart (h.alone found' (same'.trans same))
    · omega
  case recorded =>
    obtain ⟨r, stored, sound, tells⟩ := h.recorded
    exact ⟨r, spares.record.trans stored, sound, tells⟩
  case told =>
    rw [spares.published old fun apart found same => apart (h.alone found same)]
    exact h.told
  case tasks =>
    intro t member own
    obtain ⟨u, before, mine, same⟩ := spares.tasks t member own
    rw [← same]
    exact h.tasks u before mine

/-- A change to the slot of a job that leaves it its execution. -/
lemma Holds.of_slot {s s' : RunSlot} (h : c.Holds job s)
    (slots : ∀ key, d.run? key = if job = key then some s' else c.run? key)
    (same : s'.execution = s.execution)
    (recorded : ∃ r, d.Stores job r ∧ r.Sound job ∧ r.Tells s'.outcome)
    (told : d.published.lookup s'.execution = s'.outcome)
    (tasks : ∀ t ∈ d.tasks, t.job = job → t.execution = s'.execution ∧ s'.outcome = none) :
    d.Holds job s' where
  found := (slots job).trans (if_pos rfl)
  alone := by
    intro key other found eq
    rw [slots] at found
    split_ifs at found with here
    · exact here.symm
    · exact h.alone found (eq.trans same)
  recorded := recorded
  told := told
  tasks := tasks

/-- **A job that is spared** stands where it stood. -/
theorem Stands.spares {state : State} (h : c.Stands job state) (numbered : c.Numbered)
    (spares : Spares job c d) : d.Stands job state := by
  cases state with
  | unstarted => exact ⟨spares.record.trans h.1, h.2.spares spares⟩
  | initialized | deployed | submitted => exact Waits.spares h spares
  | running => exact h.imp fun s holds => holds.spares numbered spares
  | completed | interrupted =>
      exact h.imp fun s holds => ⟨holds.1.spares numbered spares, holds.2⟩
  | failed => exact h.imp fun s => Exists.imp fun reason holds =>
      ⟨holds.1.spares numbered spares, holds.2⟩
  | destroyed => exact ⟨spares.record.trans h.1, spares.run.trans h.2⟩

/-! ## Labels and numbers -/

/-- **Every row has its label**, and every execution a number of its own time. -/
structure Tidy (c : Cluster) : Prop where
  numbered : c.Numbered
  labelled : ∀ {key r}, c.Stores key r → r.name = key ∧ r.Fits

namespace Tidy

lemma of_store (h : c.Tidy) (numbered : d.Numbered) (store : d.store = c.store) : d.Tidy where
  numbered := numbered
  labelled := by
    intro key r stored
    rw [Stores, store] at stored
    exact h.labelled stored

theorem perform (h : c.Tidy) {a : Action} (fits : a.Fits) : (a.perform c).2.Tidy where
  numbered := h.numbered.perform a
  labelled := by
    intro key r stored
    have written : ∀ s, a = .putJob s → s.Fits := by
      rintro s rfl
      exact fits
    rw [Stores, Action.perform_getJob c a written] at stored
    cases a with
    | putJob s =>
        simp only at stored
        split_ifs at stored with here
        · obtain rfl : s = r := by simpa using stored
          exact ⟨here, fits⟩
        · exact h.labelled stored
    | purge job =>
        simp only at stored
        split_ifs at stored
        · simp at stored
        · exact h.labelled stored
    | _ => exact h.labelled stored

lemma after (h : c.Tidy) {actions : List Action} (fits : ∀ a ∈ actions, a.Fits) :
    (c.after actions).Tidy := by
  induction actions generalizing c with
  | nil => exact h
  | cons a rest ih =>
      exact ih (h.perform (fits a List.mem_cons_self)) fun b member =>
        fits b (List.mem_cons_of_mem a member)

lemma filter (h : c.Tidy) (p : RunTask → Bool) : Tidy { c with tasks := c.tasks.filter p } := by
  refine h.of_store ⟨fun t member => ?_, h.numbered.slots, h.numbered.published⟩ rfl
  exact h.numbered.tasks t (List.mem_filter.mp member).1

end Tidy

end Cluster

lemma Record.Fits.advance {r : Record} (h : r.Fits) (status : JobStatus) (now : UInt64) :
    Record.Fits (r.advance status now.toNat) :=
  ⟨h.config, h.createdAt, now.toNat_lt⟩

lemma Record.Fits.tell {r : Record} (h : r.Fits) (failure : Option String) :
    Record.Fits { r with failure := failure } :=
  ⟨h.config, h.createdAt, h.updatedAt⟩

lemma Record.Fits.start {r : Record} (h : r.Fits) : Record.Fits { r with executionStarted := true } :=
  ⟨h.config, h.createdAt, h.updatedAt⟩

namespace Cluster

variable {c d : Cluster} {job : String}

/-! ## Publications -/

lemma publishTask_eq {t : RunTask} {result : Option WorkResult} (phase : t.phase = .resolved result)
    (now : ℕ) :
    c.publishTask t now
      = { c.after (Program.plan c (Operation.publish t.job result now)).2 with
          tasks := c.tasks.filter fun u => u.execution != t.execution } := by
  simp only [publishTask, phase, Program.run_eq_plan, tasks_after_publish]

lemma publishTask_of_free {t : RunTask} {result : Option WorkResult}
    (phase : t.phase = .resolved result) (free : c.slots.find? t.job = none) (now : ℕ) :
    c.publishTask t now
      = { c with tasks := c.tasks.filter fun u => u.execution != t.execution } := by
  rw [publishTask_eq phase, Operation.plan_publish, free]
  rfl

/-- A publication writes about the job of the task, as the label of its row says. -/
lemma Tidy.publish (h : c.Tidy) (job : String) (result : Option WorkResult) (now : UInt64) :
    ∀ a ∈ (Program.plan c (Operation.publish job result now.toNat)).2,
      a.subject? = some job ∧ a.Fits := by
  rw [Operation.plan_publish]
  cases c.slots.find? job with
  | none => simp
  | some slot =>
      simp only
      rw [Operation.plan_persist]
      rcases stored : c.store.getJob job with e | _ | r
      · simp [Action.subject?, Action.Fits]
      · simp [Action.subject?, Action.Fits]
      · obtain ⟨name, fits⟩ := h.labelled stored
        have later := (fits.tell (Operation.reasonOf (Operation.outcomeOf slot.interrupted result))).advance
          (Operation.statusOf (Operation.outcomeOf slot.interrupted result)) now
        simpa [Action.subject?, Action.Fits, Record.advance, later] using ⟨name, later⟩

lemma Tidy.publishTask (h : c.Tidy) (t : RunTask) (now : UInt64) : (c.publishTask t now.toNat).Tidy := by
  cases phase : t.phase with
  | working work =>
      simp only [Cluster.publishTask, phase]
      exact h
  | resolved result =>
      have after := h.after fun a member => (h.publish t.job result now a member).2
      have filtered := after.filter fun u => u.execution != t.execution
      rw [publishTask_eq phase]
      rwa [tasks_after_publish] at filtered

/-- **The task of another job** publishes for its own job. -/
lemma Tidy.spares_publishTask (h : c.Tidy) {t : RunTask} (other : t.job ≠ job) (now : UInt64) :
    Spares job c (c.publishTask t now.toNat) := by
  cases phase : t.phase with
  | working work =>
      simp only [Cluster.publishTask, phase]
      exact .refl job c
  | resolved result =>
      have elsewhere : ∀ a ∈ (Program.plan c (Operation.publish t.job result now.toNat)).2,
          a.subject? ≠ some job := by
        intro a member
        rw [(h.publish t.job result now a member).1]
        simpa using other
      have filtered := (Spares.after elsewhere c).trans (.filter fun u => u.execution != t.execution)
      rw [publishTask_eq phase]
      rwa [tasks_after_publish] at filtered

/-- **A job's own task** publishes the outcome in its slot, and in its record. -/
lemma Holds.publishTask {s : RunSlot} (h : c.Holds job s) {t : RunTask} (member : t ∈ c.tasks)
    (own : t.job = job) {result : Option WorkResult} (phase : t.phase = .resolved result)
    (now : UInt64) :
    (c.publishTask t now.toNat).Holds job
      { s with outcome := some (Operation.outcomeOf s.interrupted result) } := by
  obtain ⟨slot, there, rfl⟩ := run?_eq_some.mp h.found
  obtain ⟨r, stored, sound, tells⟩ := h.recorded
  obtain ⟨same, unfinished⟩ := h.tasks t member own
  rw [unfinished] at tells
  have ended := sound.finish tells.rank (Operation.outcomeOf slot.interrupted result) now
  rw [publishTask_eq phase, own, plan_publish_own there stored, RunSlot.bare_interrupted]
  set outcome := Operation.outcomeOf slot.interrupted result
  have slots : ∀ key, run? { c.after (outcomeSteps job r outcome slot.accumulators now.toNat) with
      tasks := c.tasks.filter fun u => u.execution != t.execution } key
        = if job = key then some { slot.bare with outcome := some outcome } else c.run? key := by
    intro key
    simp only [run?, outcomeSteps, after_cons, after_nil, Action.perform_find?]
    split_ifs with here
    · subst here
      simp [there, RunSlot.bare]
    · rfl
  refine h.of_slot slots rfl ⟨r.finish outcome now.toNat, ?recorded, ended, rfl, rfl⟩ ?told ?tasks
  case recorded =>
    exact stores_outcomeSteps ended.name ended.fits ..
  case told =>
    simp [outcomeSteps, Action.perform_published, Action.perform_find?, there]
  case tasks =>
    intro u left mine
    obtain ⟨before, apart⟩ := List.mem_filter.mp left
    rw [(h.tasks u before mine).1, same] at apart
    simp at apart

/-- A job that has no slot, or whose slot, record and tasks belong together. -/
def Regular (c : Cluster) (job : String) : Prop := c.run? job = none ∨ ∃ s, c.Holds job s

lemma Stands.regular {state : State} (h : c.Stands job state) : c.Regular job := by
  cases state with
  | unstarted => exact .inl h.2.free
  | initialized | deployed | submitted =>
      obtain ⟨r, -, -, -, idle⟩ := h
      exact .inl idle.free
  | running => exact .inr h
  | completed | interrupted => exact .inr (h.imp fun s => And.left)
  | failed =>
      obtain ⟨s, reason, holds, -⟩ := h
      exact .inr ⟨s, holds⟩
  | destroyed => exact .inl h.2

/-- **The execution of a job** is still the one that it was, if there is one, and its outcome has not been
exchanged for another. -/
def Follows (job : String) (c d : Cluster) : Prop :=
  ∀ s, d.run? job = some s → ∃ before, c.run? job = some before ∧ before.execution = s.execution
    ∧ ∀ outcome, before.outcome = some outcome → s.outcome = some outcome

lemma Spares.follows (h : Spares job c d) : Follows job c d :=
  fun s found => ⟨s, h.run ▸ found, rfl, fun _ => id⟩

lemma Holds.follows {s s' : RunSlot} (h : c.Holds job s) (h' : d.Holds job s')
    (same : s.execution = s'.execution)
    (kept : ∀ outcome, s.outcome = some outcome → s'.outcome = some outcome) : Follows job c d := by
  intro t found
  obtain rfl := Option.some.inj (h'.found.symm.trans found)
  exact ⟨s, h.found, same, kept⟩

/-- **A job goes on** from one cluster to the other, whatever its state. -/
structure Goes (job : String) (c d : Cluster) : Prop where
  tidy : d.Tidy
  stands : ∀ {state}, c.Stands job state → d.Stands job state
  follows : c.Regular job → Follows job c d

lemma Spares.goes (h : Spares job c d) (before : c.Tidy) (after : d.Tidy) : Goes job c d where
  tidy := after
  stands := fun standing => standing.spares before.numbered h
  follows := fun _ => h.follows

lemma Stands.publishTask {state : State} (h : c.Stands job state) {t : RunTask}
    (member : t ∈ c.tasks) (own : t.job = job) {result : Option WorkResult}
    (phase : t.phase = .resolved result) (now : UInt64) :
    (c.publishTask t now.toNat).Stands job state := by
  cases state with
  | unstarted => exact absurd own (h.2.tasks t member)
  | initialized | deployed | submitted =>
      obtain ⟨r, -, -, -, idle⟩ := h
      exact absurd own (idle.tasks t member)
  | running =>
      obtain ⟨s, holds⟩ := h
      exact ⟨_, holds.publishTask member own phase now⟩
  | completed =>
      obtain ⟨s, holds, ended⟩ := h
      simp [(holds.tasks t member own).2] at ended
  | failed =>
      obtain ⟨s, reason, holds, ended⟩ := h
      simp [(holds.tasks t member own).2] at ended
  | interrupted =>
      obtain ⟨s, holds, ended | ⟨-, flag⟩⟩ := h
      · simp [(holds.tasks t member own).2] at ended
      · exact ⟨_, holds.publishTask member own phase now, .inl (by simp [flag, Operation.outcomeOf])⟩
  | destroyed =>
      have free := run?_eq_none.mp h.2
      rw [publishTask_of_free phase (own ▸ free)]
      exact h

lemma follows_publishTask (regular : c.Regular job) {t : RunTask} (member : t ∈ c.tasks)
    (own : t.job = job) {result : Option WorkResult} (phase : t.phase = .resolved result)
    (now : UInt64) : Follows job c (c.publishTask t now.toNat) := by
  rcases regular with free | ⟨s, holds⟩
  · rw [publishTask_of_free phase (own ▸ run?_eq_none.mp free)]
    exact (Spares.filter _).follows
  · exact holds.follows (holds.publishTask member own phase now) rfl
      (by simp [(holds.tasks t member own).2])

/-- **Every task may publish** at any time, without any effect on where a job stands. -/
theorem Tidy.goes_publishTask (h : c.Tidy) {t : RunTask} (member : t ∈ c.tasks) (now : UInt64) :
    Goes job c (c.publishTask t now.toNat) := by
  have tidy := h.publishTask t now
  cases phase : t.phase with
  | working work =>
      have idle : c.publishTask t now.toNat = c := by simp [Cluster.publishTask, phase]
      rw [idle] at tidy ⊢
      exact (Spares.refl job c).goes h tidy
  | resolved result =>
      by_cases own : t.job = job
      · exact ⟨tidy, fun stands => stands.publishTask member own phase now,
          fun regular => follows_publishTask regular member own phase now⟩
      · exact (h.spares_publishTask own now).goes h tidy

/-! ## Calls -/

/-- A call writes about its job, as the label of its row says. -/
lemma Tidy.effect (h : c.Tidy) {call : Call} {actions : List Action}
    (effect : c.Effect job call actions) : ∀ a ∈ actions, a.subject? = some job ∧ a.Fits := by
  cases effect with
  | nothing => simp
  | create missing fits now =>
      have sound : Record.Sound job _ := .ofNew fits now
      simpa [Action.subject?, Action.Fits, Record.new] using sound.fits
  | configure stored status fits now =>
      obtain ⟨name, before⟩ := h.labelled stored
      simpa [Action.subject?, Action.Fits] using ⟨name, ⟨fits, before.createdAt, now.toNat_lt⟩⟩
  | deploy valid stored status rs now =>
      obtain ⟨name, before⟩ := h.labelled stored
      simpa [Action.subject?, Action.Fits] using ⟨name, before.advance .deployed now⟩
  | submit stored status graph now =>
      obtain ⟨name, before⟩ := h.labelled stored
      simpa [Action.subject?, Action.Fits] using ⟨name, before.advance .submitted now⟩
  | @start r stored status fresh graph resources now =>
      obtain ⟨name, before⟩ := h.labelled stored
      have running := before.start.advance .running now
      simpa [Action.subject?, Action.Fits] using ⟨name, running⟩
  | interrupt found unfinished => simp [Action.subject?, Action.Fits]
  | destroy valid => simp [Action.subject?, Action.Fits]

/-- A record that is written, and whatever else the store holds. -/
lemma Idle.writes (h : c.Idle job) {r : Record} (sound : r.Sound job) (s : Store) :
    Waits { c with store := s.putJob r } job r.status :=
  ⟨r, (s.getJob_putJob sound.fits job).trans (if_pos sound.name), sound, rfl, h.free, h.tasks⟩

/-- **A job is launched** whose record says that it runs. -/
lemma Waits.launch (h : c.Waits job .running) (numbered : c.Numbered) {context : ExecutionContext}
    (own : context.job = job) : ∃ s, (c.launch context).Holds job s := by
  obtain ⟨r, stored, sound, running, idle⟩ := h
  refine ⟨⟨c.nextExecution, false, none, .empty⟩, ?_⟩
  constructor
  case found => simp [run?, own, RunSlot.bare]
  case alone =>
    intro key other found same
    simp only [run?, launch_find?, own] at found
    split_ifs at found with here
    · exact here.symm
    · have old := numbered.run found
      simp only at same
      omega
  case recorded => exact ⟨r, stored, sound, running⟩
  case told =>
    show c.published.lookup c.nextExecution = none
    rw [List.lookup_eq_none_iff]
    intro p member
    simpa using (numbered.published p member).ne'
  case tasks =>
    intro t member mine
    rcases List.mem_append.mp member with before | new
    · exact absurd mine (idle.tasks t before)
    · obtain rfl := List.mem_singleton.mp new
      exact ⟨rfl, rfl⟩

/-- The flag in the slot of a job is raised. -/
lemma Holds.requestInterrupt {s : RunSlot} (h : c.Holds job s) :
    (c.requestInterrupt job).Holds job { s with interrupted := true } := by
  obtain ⟨slot, there, rfl⟩ := run?_eq_some.mp h.found
  have slots : ∀ key, (c.requestInterrupt job).run? key
      = if job = key then some { slot.bare with interrupted := true } else c.run? key := by
    intro key
    simp only [run?, Cluster.requestInterrupt, modifySlot_find?]
    split_ifs with here
    · subst here
      simp [there, RunSlot.bare]
    · rfl
  refine h.of_slot slots rfl ?_ ?_ ?_
  · simpa [Stores, Cluster.requestInterrupt] using h.recorded
  · simpa [Cluster.requestInterrupt] using h.told
  · simpa [Cluster.requestInterrupt] using h.tasks

lemma follows_requestInterrupt (regular : c.Regular job) : Follows job c (c.requestInterrupt job) := by
  rcases regular with free | ⟨s, holds⟩
  · have same : c.requestInterrupt job = c := by
      simp [Cluster.requestInterrupt, Cluster.modifySlot, run?_eq_none.mp free]
    rw [same]
    exact (Spares.refl job c).follows
  · exact holds.follows holds.requestInterrupt rfl fun _ => id

/-- **A call that has changed something** leaves the job in the state to which its event leads. -/
theorem Stands.effect {state next : State} (h : c.Stands job state) (tidy : c.Tidy) {i : Intent}
    {actions : List Action} (effect : c.Effect job i.call actions) (changed : actions ≠ [])
    (legal : state.next? i.event = some next) (stays : i ≠ .destroy) :
    (c.after actions).Stands job next := by
  rw [Job.next?_eq_some_iff] at legal
  cases i with
  | init config =>
      cases legal
      cases effect with
      | nothing => exact absurd rfl changed
      | create missing fits now => exact h.2.writes (.ofNew fits now) c.store
      | configure stored => exact absurd stored h.1.not_stores
  | deploy rs =>
      cases legal
      obtain ⟨r, there, sound, status, idle⟩ := h
      cases effect with
      | nothing => exact absurd rfl changed
      | deploy valid stored _ _ now =>
          obtain rfl := there.unique stored
          have deployed := sound.advance .deployed (by simp [status, JobStatus.rank]) (by decide) now
          exact idle.writes deployed (c.store.putResources job rs)
  | submit graph =>
      cases legal
      obtain ⟨r, there, sound, status, idle⟩ := h
      cases effect with
      | nothing => exact absurd rfl changed
      | submit stored _ _ now =>
          obtain rfl := there.unique stored
          have submitted := sound.advance .submitted (by simp [status, JobStatus.rank]) (by decide) now
          exact idle.writes submitted (c.store.putGraph job graph)
  | execute =>
      cases legal
      obtain ⟨r, there, sound, status, idle⟩ := h
      cases effect with
      | nothing => exact absurd rfl changed
      | start stored _ _ graph resources now =>
          obtain rfl := there.unique stored
          exact Waits.launch (idle.writes (sound.start status now) c.store)
            ⟨tidy.numbered.tasks, tidy.numbered.slots, tidy.numbered.published⟩ rfl
  | interrupt =>
      cases legal
      obtain ⟨s, holds⟩ := h
      cases effect with
      | nothing => exact absurd rfl changed
      | interrupt found unfinished =>
          obtain rfl : RunSlot.bare _ = s :=
            Option.some.inj ((run?_eq_some.mpr ⟨_, found, rfl⟩).symm.trans holds.found)
          exact ⟨_, holds.requestInterrupt, .inr ⟨unfinished, rfl⟩⟩
  | destroy => exact absurd rfl stays

/-- Where a job stands that is destroyed from its slot to its record. -/
lemma stands_destroyed (free : c.run? job = none) :
    Stands { c with store := (c.store.purge job).2 } job .destroyed :=
  ⟨(c.store.getJob_purge job job).trans (if_pos rfl), free⟩

end Cluster

end ControlPlane
