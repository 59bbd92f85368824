import Mathlib
import ControlPlane.Proofs.Cluster.Standing

/-!
# Tasks, slots and records between two ticks

A task looks for the slot of its job by name, and a destruction does not stop a task that has resolved.  So
slots and tasks need not belong together; what is left of it is said here.

* `Cluster.number?` — the number of the execution in the slot of a job.
* `Cluster.Attended` — the invariant: a task at work has its slot, and the record of a job with a slot
  tells how the execution in it stands.
* `Cluster.Upshot`, `Cluster.Descends` — what a call makes of the executions, and where a task comes from.
* `Attended.react`, `Attended.play` — ticks keep the invariant.
-/

namespace ControlPlane

namespace Cluster

/-! ## Numbers of slots -/

/-- The number of the execution in the slot of a job. -/
def number? (c : Cluster) (job : String) : Option ℕ := (c.slots.find? job).map RunSlot.execution

variable {c d : Cluster} {job : String}

lemma number?_eq_none : c.number? job = none ↔ c.slots.find? job = none := by
  simp [number?]

lemma number?_eq_some {n : ℕ} :
    c.number? job = some n ↔ ∃ slot, c.slots.find? job = some slot ∧ slot.execution = n :=
  Option.map_eq_some_iff

lemma Spares.number? (h : Spares job c d) : d.number? job = c.number? job := by
  have through_run : ∀ e : Cluster, e.number? job = (e.run? job).map RunSlot.execution := fun e => by
    simp [Cluster.number?, run?, Function.comp_def]
  rw [through_run, through_run, h.run]

lemma perform_number? (c : Cluster) (a : Action) (job : String) :
    (a.perform c).2.number? job = match a with
      | .launch context => if context.job = job then some c.nextExecution else c.number? job
      | .removeSlot key => if key = job then none else c.number? job
      | _ => c.number? job := by
  simp only [number?, Action.perform_find?]
  cases a <;> simp only <;> try split_ifs
  all_goals simp [Function.comp_def]

/-- The tasks that are left when the slot of a job is removed. -/
lemma mem_removeSlot {t : RunTask} (member : t ∈ (c.removeSlot job).tasks) :
    t ∈ c.tasks ∧ (RunTask.isWorking t = true → c.number? job ≠ some t.execution) := by
  unfold removeSlot at member
  cases found : c.slots.find? job with
  | none =>
      rw [found] at member
      exact ⟨member, fun _ => by simp [number?_eq_none.mpr found]⟩
  | some slot =>
      rw [found] at member
      obtain ⟨before, spared⟩ := List.mem_filter.mp member
      refine ⟨before, fun working same => ?_⟩
      obtain ⟨slot', there, eq⟩ := number?_eq_some.mp same
      obtain rfl := Option.some.inj (found.symm.trans there)
      simp [working, eq] at spared

/-! ## Slots and records after a step -/

/-- The slot of a job without its counters, after a step. -/
lemma perform_run? (c : Cluster) (a : Action) (job : String) :
    (a.perform c).2.run? job = match a with
      | .launch context =>
        if context.job = job then some ⟨c.nextExecution, false, none, .empty⟩ else c.run? job
      | .requestInterrupt key =>
        if key = job then (c.run? job).map fun s => { s with interrupted := true } else c.run? job
      | .removeSlot key => if key = job then none else c.run? job
      | .setOutcome key outcome =>
        if key = job then (c.run? job).map fun s => { s with outcome := some outcome } else c.run? job
      | _ => c.run? job := by
  simp only [run?, Action.perform_find?]
  cases a <;> simp only <;> try split_ifs
  all_goals simp [RunSlot.bare, Function.comp_def]

/-- A record that has been written under its name is stored. -/
lemma stores_putJob (c : Cluster) {r : Record} (name : r.name = job) (fits : r.Fits) :
    (Action.perform c (.putJob r)).2.Stores job r :=
  (c.store.getJob_putJob fits job).trans (if_pos name)

/-! ## The invariant -/

/-- **Every task at work has its slot**, and the record of a job with a slot tells how its execution stands. -/
structure Attended (c : Cluster) : Prop where
  tidy : c.Tidy
  valid : ∀ t ∈ c.tasks, Job.isName t.job = true
  own : ∀ t ∈ c.tasks, RunTask.isWorking t = true → c.number? t.job = some t.execution
  /-- No two jobs have tasks of one number. -/
  apart : ∀ t ∈ c.tasks, ∀ u ∈ c.tasks, t.execution = u.execution → t.job = u.job
  recorded : ∀ {job s}, c.run? job = some s → ∃ r, c.Stores job r ∧ r.Tells s.outcome

namespace Attended

/-- The record of a job with a slot. -/
lemma of_slot (h : c.Attended) {slot : RunSlot} (found : c.slots.find? job = some slot) :
    ∃ r, c.Stores job r ∧ r.Tells slot.outcome := by
  have running : c.run? job = some slot.bare := run?_eq_some.mpr ⟨slot, found, rfl⟩
  obtain ⟨r, stored, tells⟩ := h.recorded running
  exact ⟨r, stored, tells⟩

/-- A job whose record says that it has not been started has no slot. -/
lemma free_of_rank (h : c.Attended) {r : Record} (stored : c.Stores job r)
    (early : r.status.rank < 3) : c.slots.find? job = none := by
  cases found : c.slots.find? job with
  | none => rfl
  | some slot =>
      obtain ⟨s, stored', tells⟩ := h.of_slot found
      obtain rfl := stored.unique stored'
      exact absurd early (not_lt.mpr tells.rank)

lemma free_of_lacks (h : c.Attended) (missing : c.Lacks job) : c.slots.find? job = none := by
  cases found : c.slots.find? job with
  | none => rfl
  | some slot =>
      obtain ⟨r, stored, -⟩ := h.of_slot found
      exact absurd stored missing.not_stores

lemma start (executor : Executor) : (ofStore .empty executor).Attended where
  tidy := by
    refine ⟨World.numbered_start executor, fun stored => ?_⟩
    simp [Stores, ofStore, Store.getJob, Store.get, Store.empty] at stored
  valid := by simp [ofStore]
  own := by simp [ofStore]
  apart := by simp [ofStore]
  recorded := by simp [ofStore, run?]

end Attended

/-! ## Calls -/

/-- A job without a proper name is not started. -/
lemma start_of_invalid (invalid : ¬Job.isName job = true) (now : ℕ) :
    Call.start.actions c job now = [] := by
  rw [Call.actions_eq]
  simp [Operation.plan_start, findRecord, invalid]

/-- **What a call makes of the executions** of its job: nothing, the first one, or the end of it. -/
inductive Upshot (c : Cluster) (q : Request) (d : Cluster) : Prop where
  | quiet (tasks : d.tasks = c.tasks) (number : d.number? q.job = c.number? q.job)
      (record : c.number? q.job ≠ none → d.store.getJob q.job = c.store.getJob q.job)
      (stays : ¬(q.call = .destroy ∧ Job.isName q.job = true))
  | starts (call : q.call = .start) (valid : Job.isName q.job = true) (free : c.number? q.job = none)
      (number : d.number? q.job = some c.nextExecution) {r : Record} (stored : d.Stores q.job r)
      (running : r.status = .running) {t : RunTask} (own : t.job = q.job)
      (new : t.execution = c.nextExecution) (working : RunTask.isWorking t = true)
      (tasks : d.tasks = c.tasks ++ [t])
  | destroys (call : q.call = .destroy) (number : d.number? q.job = none)
      (tasks : ∀ t ∈ d.tasks, t ∈ c.tasks
        ∧ (RunTask.isWorking t = true → c.number? q.job ≠ some t.execution))

theorem Attended.upshot (h : c.Attended) (q : Request) : c.Upshot q (c.after (q.actions c)) := by
  have effect := q.effect c
  obtain ⟨job, call, now, fits⟩ := q
  simp only at effect
  have labelled : ∀ a ∈ Request.actions ⟨job, call, now, fits⟩ c, a.Fits := fun a member =>
    (h.tidy.effect effect a member).2
  have valid_of_start : call = .start → Request.actions ⟨job, call, now, fits⟩ c ≠ [] →
      Job.isName job = true := by
    rintro rfl started
    by_contra invalid
    exact started (start_of_invalid invalid now.toNat)
  have destroyed : call = .destroy → Job.isName job = true →
      Request.actions ⟨job, call, now, fits⟩ c = [.removeSlot job, .purge job] := by
    rintro rfl valid
    exact Call.actions_destroy c now.toNat valid
  generalize Request.actions ⟨job, call, now, fits⟩ c = actions at *
  -- A call that only writes about a job that has not been started finds no slot.
  have writes : c.number? job = none → (∀ key, (c.after actions).number? key = c.number? key) →
      (c.after actions).tasks = c.tasks → ¬call = .destroy →
      c.Upshot ⟨job, call, now, fits⟩ (c.after actions) := fun free number tasks other =>
    .quiet tasks (number job) (fun busy => absurd free busy) fun destroy => other destroy.1
  cases effect with
  | nothing =>
      refine .quiet rfl rfl (fun _ => rfl) ?_
      rintro ⟨destroy, valid⟩
      simpa using destroyed destroy valid
  | create missing fits now =>
      exact writes (number?_eq_none.mpr (h.free_of_lacks missing)) (by simp [perform_number?]) (by simp [Action.perform_tasks])
        (by simp)
  | configure stored status fits now =>
      exact writes (number?_eq_none.mpr (h.free_of_rank stored (by simp [status, JobStatus.rank]))) (by simp [perform_number?])
        (by simp [Action.perform_tasks]) (by simp)
  | deploy valid stored status rs now =>
      refine writes (number?_eq_none.mpr (h.free_of_rank stored ?_)) (by simp [perform_number?]) (by simp [Action.perform_tasks])
        (by simp)
      rcases status with status | status <;> simp [status, JobStatus.rank]
  | submit stored status graph now =>
      exact writes (number?_eq_none.mpr (h.free_of_rank stored (by simp [status, JobStatus.rank]))) (by simp [perform_number?])
        (by simp [Action.perform_tasks]) (by simp)
  | @start r stored status fresh graph resources at_ =>
      have free := number?_eq_none.mpr (h.free_of_rank stored (by simp [status, JobStatus.rank]))
      refine .starts rfl (valid_of_start rfl (by simp)) free (by simp [perform_number?, Action.perform_nextExecution])
        (r := { r with executionStarted := true }.advance .running at_.toNat) ?_ rfl
        (t := ⟨c.nextExecution, job, false, .working (c.executor ⟨job, r.config, graph, resources⟩).work⟩)
        rfl rfl rfl (by simp [Action.perform_tasks, Action.perform_nextExecution])
      have written := labelled (.putJob _) List.mem_cons_self
      exact (c.store.getJob_putJob written job).trans (if_pos (h.tidy.labelled stored).1)
  | interrupt found unfinished =>
      exact .quiet (by simp [Action.perform_tasks]) (by simp [perform_number?])
        (fun _ => by simp [Action.perform_getJob]) (by simp)
  | destroy valid =>
      refine .destroys rfl (by simp [perform_number?]) fun t member => ?_
      rw [after_cons, after_cons, after_nil, Action.perform_tasks] at member
      exact mem_removeSlot member

/-! ## Ticks keep the invariant -/

/-- **Where a task comes from** that is there after a tick. -/
inductive Descends (c : Cluster) (tick : Tick) (t : RunTask) : Prop where
  /-- It was there before; it has not been at work while its job was destroyed. -/
  | stays {u : RunTask} (before : u ∈ c.tasks) (job : u.job = t.job) (same : u.execution = t.execution)
      (phase : u.phase = t.phase)
      (left : tick.Destroys t.job → RunTask.isWorking t = true → c.number? t.job ≠ some t.execution)
  /-- It has been carried on. -/
  | works {u : RunTask} {work : Work} (carried : tick = .resolve t.execution)
      (found : c.findTask t.execution = some u) (job : u.job = t.job) (phase : u.phase = .working work)
      (here : (c.react tick).findTask t.execution = some t)
  /-- It is new. -/
  | starts {q : Request} (called : tick = .call q) (own : t.job = q.job)
      (new : t.execution = c.nextExecution) (working : RunTask.isWorking t = true)
      (valid : Job.isName t.job = true) (number : (c.react tick).number? t.job = some t.execution)

/-- A publication adds no task. -/
lemma mem_publishTask {t u : RunTask} {now : ℕ} (member : u ∈ (c.publishTask t now).tasks) :
    u ∈ c.tasks := by
  cases phase : t.phase with
  | working work => simpa [publishTask, phase] using member
  | resolved result =>
      rw [publishTask_eq phase] at member
      exact (List.mem_filter.mp member).1

/-- A task that was there before a tick that destroys nothing. -/
lemma Descends.of_mem {tick : Tick} {t : RunTask} (member : t ∈ c.tasks)
    (harmless : ¬tick.Destroys t.job) : c.Descends tick t :=
  .stays member rfl rfl rfl fun destroys => absurd destroys harmless

/-- A task that is there was there before, or a call on its job has started it. -/
lemma Descends.origin {tick : Tick} {t : RunTask} (h : c.Descends tick t) :
    (∃ u ∈ c.tasks, u.job = t.job ∧ u.execution = t.execution)
      ∨ ∃ q : Request, tick = .call q ∧ t.job = q.job ∧ t.execution = c.nextExecution := by
  cases h with
  | @stays u before job same => exact .inl ⟨u, before, job, same⟩
  | @works u work carried found job =>
      exact .inl ⟨u, List.mem_of_find?_eq_some found, job, findTask_execution found⟩
  | starts called own new => exact .inr ⟨_, called, own, new⟩

theorem Attended.descends (h : c.Attended) {tick : Tick} {t : RunTask}
    (member : t ∈ (c.react tick).tasks) : c.Descends tick t := by
  cases tick with
  | call q =>
      rw [react_call] at member
      cases h.upshot q with
      | quiet tasks number record stays =>
          rw [tasks] at member
          refine .of_mem member ?_
          rintro ⟨own, destroy⟩
          exact stays ⟨destroy, own ▸ h.valid t member⟩
      | starts call valid free number stored running own new working tasks =>
          rw [tasks] at member
          rcases List.mem_append.mp member with before | new_one
          · refine .of_mem before ?_
            rintro ⟨-, destroy⟩
            simp [call] at destroy
          · obtain rfl := List.mem_singleton.mp new_one
            exact .starts rfl own new working (own ▸ valid) (by rw [react_call, own, new, number])
      | destroys call number tasks =>
          obtain ⟨before, spared⟩ := tasks t member
          exact .stays before rfl rfl rfl fun destroys working => destroys.1 ▸ spared working
  | resolve execution =>
      simp only [react, resolved] at member
      cases found : c.findTask execution with
      | none =>
          rw [found] at member
          exact .of_mem member id
      | some u =>
          obtain rfl := findTask_execution found
          rw [found] at member
          cases phase : u.phase with
          | resolved result =>
              simp only [resolveTask, phase] at member
              exact .of_mem member id
          | working work =>
              obtain ⟨a, next, eq, -⟩ := c.resolveTask_eq phase
              simp only [eq] at member
              obtain ⟨v, before, rfl⟩ := List.mem_map.mp member
              rw [putCounters_tasks] at before
              split_ifs with same
              · refine .works rfl found rfl phase ?_
                simp only [react, resolved, found, eq]
                exact findTask_replaceTask (c.putCounters u a) (by simpa [findTask] using found) rfl
              · exact .of_mem before id
  | publish execution now =>
      refine .of_mem ?_ id
      simp only [react] at member
      split at member
      · exact mem_publishTask member
      · exact member
  | write execution w => exact .of_mem member id
  | openGate key =>
      simp only [react, openGate] at member
      split at member
      · obtain ⟨u, before, rfl⟩ := List.mem_map.mp member
        refine .stays before ?_ ?_ ?_ fun destroys => absurd destroys id
        all_goals split_ifs <;> rfl
      · exact .of_mem member id
  | exchange executor => exact .of_mem member id
  | restart => simp [react, restart] at member

/-- A publication leaves every slot its number. -/
lemma number?_publishTask (c : Cluster) (t : RunTask) (now : ℕ) (key : String) :
    (c.publishTask t now).number? key = c.number? key := by
  cases phase : t.phase with
  | working work => simp [publishTask, phase]
  | resolved result =>
      rw [publishTask_eq phase, Operation.plan_publish]
      show Cluster.number? (c.after _) key = _
      cases c.slots.find? t.job with
      | none => rfl
      | some slot =>
          simp only
          rw [Operation.plan_persist]
          rcases c.store.getJob t.job with e | _ | r <;> simp [perform_number?]

namespace Attended

lemma spares_call (h : c.Attended) {q : Request} (other : q.job ≠ job) :
    Spares job c (c.after (q.actions c)) :=
  .after (fun a member => by simpa [(h.tidy.effect (q.effect c) a member).1] using other) c

/-- **The slot of a job** keeps its number, or there was none and the next one is given. -/
theorem number?_react (h : c.Attended) {tick : Tick} (stays : ¬tick.Destroys job)
    (goes_on : tick ≠ .restart) :
    (c.react tick).number? job = c.number? job
      ∨ c.number? job = none ∧ (c.react tick).number? job = some c.nextExecution := by
  cases tick with
  | call q =>
      rw [react_call]
      by_cases own : q.job = job
      · subst own
        cases h.upshot q with
        | quiet tasks number record stays => exact .inl number
        | starts call valid free number stored running own new working tasks => exact .inr ⟨free, number⟩
        | destroys call number tasks => exact absurd ⟨rfl, call⟩ stays
      · exact .inl (h.spares_call own).number?
  | resolve execution => exact .inl (Spares.resolved c execution).number?
  | publish execution now =>
      left
      simp only [react]
      split
      · exact number?_publishTask ..
      · rfl
  | write execution w => exact .inl (Spares.writeSink c execution w).number?
  | openGate key => exact .inl (Spares.openGate c key).number?
  | exchange executor => exact .inl rfl
  | restart => exact absurd rfl goes_on

lemma number?_of_destroys (h : c.Attended) {tick : Tick} (destroys : tick.Destroys job)
    (valid : Job.isName job = true) : (c.react tick).number? job = none := by
  cases tick with
  | call q =>
      obtain ⟨rfl, destroy⟩ := destroys
      rw [react_call]
      cases h.upshot q with
      | quiet tasks number record stays => exact absurd ⟨destroy, valid⟩ stays
      | starts call => simp [call] at destroy
      | destroys call number tasks => exact number
  | _ => exact destroys.elim

/-- **What a task does that publishes** in a slot, whosever it is. -/
lemma publishTask_eq (h : c.Attended) {t : RunTask} {result : Option WorkResult}
    (phase : t.phase = .resolved result) {slot : RunSlot} (found : c.slots.find? t.job = some slot)
    (now : ℕ) :
    ∃ r, c.Stores t.job r ∧ r.Tells slot.outcome ∧ c.publishTask t now
      = { c.after (outcomeSteps t.job r (Operation.outcomeOf slot.interrupted result)
            slot.accumulators now) with
          tasks := c.tasks.filter fun u => u.execution != t.execution } := by
  obtain ⟨r, stored, tells⟩ := h.of_slot found
  refine ⟨r, stored, tells, ?_⟩
  rw [Cluster.publishTask_eq phase, plan_publish_own found stored]

/-- The record of a job with a slot after a call on it. -/
lemma recorded_call (h : c.Attended) {call : Call} {actions : List Action}
    (effect : c.Effect job call actions) {s : RunSlot} (found : (c.after actions).run? job = some s) :
    ∃ r, (c.after actions).Stores job r ∧ r.Tells s.outcome := by
  have written := h.tidy.effect effect
  cases effect with
  | nothing => exact h.recorded found
  | create missing fits now =>
      simp [perform_run?, run?_eq_none.mpr (h.free_of_lacks missing)] at found
  | configure stored status fits now =>
      have free := h.free_of_rank stored (by simp [status, JobStatus.rank])
      simp [perform_run?, run?_eq_none.mpr free] at found
  | deploy valid stored status rs now =>
      have free := h.free_of_rank stored (by rcases status with status | status <;> simp [status, JobStatus.rank])
      simp [perform_run?, run?_eq_none.mpr free] at found
  | submit stored status graph now =>
      have free := h.free_of_rank stored (by simp [status, JobStatus.rank])
      simp [perform_run?, run?_eq_none.mpr free] at found
  | @start r stored status fresh graph resources now =>
      obtain rfl : (⟨_, false, none, .empty⟩ : RunSlot) = s := by simpa [perform_run?] using found
      exact ⟨_, stores_putJob c (h.tidy.labelled stored).1 (written _ List.mem_cons_self).2, rfl⟩
  | @interrupt slot there unfinished =>
      have running : c.run? job = some slot.bare := run?_eq_some.mpr ⟨slot, there, rfl⟩
      obtain ⟨r, stored, tells⟩ := h.recorded running
      obtain rfl : { slot.bare with interrupted := true } = s := by
        simpa [perform_run?, running] using found
      exact ⟨r, (Action.perform_getJob _ _ (by simp) job).trans stored, tells⟩
  | destroy valid => simp [perform_run?] at found

/-- After a call that does something, no execution of the job is finished. -/
lemma untold_after_call (h : c.Attended) {call : Call} {actions : List Action}
    (effect : c.Effect job call actions) {s : RunSlot} (found : (c.after actions).run? job = some s)
    (ended : s.outcome ≠ none) : actions = [] := by
  have free_early : ∀ {r}, c.Stores job r → r.status.rank < 3 → c.run? job = none := fun stored early =>
    run?_eq_none.mpr (h.free_of_rank stored early)
  cases effect with
  | nothing => rfl
  | create missing fits now =>
      simp [perform_run?, run?_eq_none.mpr (h.free_of_lacks missing)] at found
  | configure stored status fits now =>
      simp [perform_run?, free_early stored (by simp [status, JobStatus.rank])] at found
  | deploy valid stored status rs now =>
      have early := free_early stored (by rcases status with status | status <;> simp [status, JobStatus.rank])
      simp [perform_run?, early] at found
  | submit stored status graph now =>
      simp [perform_run?, free_early stored (by simp [status, JobStatus.rank])] at found
  | start stored status fresh graph resources now =>
      obtain rfl : (⟨_, false, none, .empty⟩ : RunSlot) = s := by simpa [perform_run?] using found
      exact absurd rfl ended
  | @interrupt slot there unfinished =>
      have running : c.run? job = some slot.bare := run?_eq_some.mpr ⟨slot, there, rfl⟩
      obtain rfl : { slot.bare with interrupted := true } = s := by
        simpa [perform_run?, running] using found
      exact absurd unfinished ended
  | destroy valid => simp [perform_run?] at found

/-- The record of a job with a slot after a publication. -/
lemma recorded_publishTask (h : c.Attended) (t : RunTask) (now : UInt64) {s : RunSlot}
    (found : (c.publishTask t now.toNat).run? job = some s) :
    ∃ r, (c.publishTask t now.toNat).Stores job r ∧ r.Tells s.outcome := by
  by_cases own : t.job = job
  · subst own
    cases phase : t.phase with
    | working work =>
        simp only [publishTask, phase] at found ⊢
        exact h.recorded found
    | resolved result =>
        cases there : c.slots.find? t.job with
        | none =>
            rw [publishTask_of_free phase there] at found ⊢
            exact h.recorded found
        | some slot =>
            have running : c.run? t.job = some slot.bare := run?_eq_some.mpr ⟨slot, there, rfl⟩
            obtain ⟨r, stored, -, after⟩ := h.publishTask_eq phase there now.toNat
            obtain ⟨name, fits⟩ := h.tidy.labelled stored
            rw [after] at found ⊢
            generalize Operation.outcomeOf slot.interrupted result = outcome at found ⊢
            have ended : (r.finish outcome now.toNat).Fits := (fits.tell _).advance _ now
            have told : (c.after (outcomeSteps t.job r outcome slot.accumulators now.toNat)).run? t.job
                = some { slot.bare with outcome := some outcome } := by
              simp [outcomeSteps, perform_run?, running]
            obtain rfl := Option.some.inj (told.symm.trans found)
            exact ⟨r.finish outcome now.toNat, stores_outcomeSteps name ended .., rfl, rfl⟩
  · have spares := h.tidy.spares_publishTask own now
    obtain ⟨r, stored, tells⟩ := h.recorded (spares.run.symm.trans found)
    exact ⟨r, spares.record.trans stored, tells⟩

/-- The record of a job with a slot after a tick. -/
lemma recorded_react (h : c.Attended) (tick : Tick) {s : RunSlot}
    (found : (c.react tick).run? job = some s) :
    ∃ r, (c.react tick).Stores job r ∧ r.Tells s.outcome := by
  have spared : ∀ {d : Cluster}, Spares job c d → d.run? job = some s →
      ∃ r, d.Stores job r ∧ r.Tells s.outcome := by
    intro d spares found
    obtain ⟨r, stored, tells⟩ := h.recorded (spares.run.symm.trans found)
    exact ⟨r, spares.record.trans stored, tells⟩
  cases tick with
  | call q =>
      rw [react_call] at found ⊢
      by_cases own : q.job = job
      · subst own
        exact h.recorded_call (q.effect c) found
      · exact spared (h.spares_call own) found
  | resolve execution => exact spared (.resolved c execution) found
  | publish execution now =>
      simp only [react] at found ⊢
      cases there : c.findTask execution with
      | none =>
          rw [there] at found
          exact h.recorded found
      | some t =>
          rw [there] at found
          exact h.recorded_publishTask t now found
  | write execution w => exact spared (.writeSink c execution w) found
  | openGate key => exact spared (.openGate c key) found
  | exchange executor => exact h.recorded found
  | restart => simp [react, restart, run?] at found

theorem react (h : c.Attended) (tick : Tick) : (c.react tick).Attended where
  tidy := by
    have numbered := h.tidy.numbered
    cases tick with
    | call q =>
        rw [react_call]
        exact h.tidy.after fun a member => (h.tidy.effect (q.effect c) a member).2
    | resolve execution => exact h.tidy.of_store (numbered.resolved execution) (resolved_store ..)
    | publish execution now =>
        simp only [Cluster.react]
        split
        · exact h.tidy.publishTask _ now
        · exact h.tidy
    | write execution w => exact h.tidy.of_store (numbered.writeSink execution w) rfl
    | openGate key => exact h.tidy.of_store (numbered.openGate key) (openGate_store ..)
    | exchange executor =>
        exact h.tidy.of_store ⟨numbered.tasks, numbered.slots, numbered.published⟩ rfl
    | restart => exact h.tidy.of_store .restart rfl
  valid := by
    intro t member
    cases h.descends member with
    | stays before job => exact job ▸ h.valid _ before
    | works carried found job => exact job ▸ h.valid _ (List.mem_of_find?_eq_some found)
    | starts called own new working valid => exact valid
  own := by
    intro t member working
    have goes_on : tick ≠ .restart := by
      rintro rfl
      simp [Cluster.react, restart] at member
    have kept : ∀ {u : RunTask}, u ∈ c.tasks → u.job = t.job → u.execution = t.execution →
        RunTask.isWorking u = true → ¬tick.Destroys t.job →
        (c.react tick).number? t.job = some t.execution := by
      intro u before job same busy harmless
      have own := h.own u before busy
      rw [job, same] at own
      rcases h.number?_react harmless goes_on with number | ⟨free, -⟩
      · rw [number, own]
      · simp [free] at own
    cases h.descends member with
    | @stays u before job same phase left =>
        have busy : RunTask.isWorking u = true := by simpa [RunTask.isWorking, phase] using working
        refine kept before job same busy fun destroys => left destroys working ?_
        rw [← job, ← same]
        exact h.own u before busy
    | works carried found job phase here =>
        subst carried
        exact kept (List.mem_of_find?_eq_some found) job (findTask_execution found)
          (by simp [RunTask.isWorking, phase]) id
    | starts called own new working valid number => exact number
  apart := by
    intro t here u there same
    have origin_t := (h.descends here).origin
    have origin_u := (h.descends there).origin
    rcases origin_t with ⟨v, before, job, number⟩ | ⟨q, called, own, new⟩ <;>
      rcases origin_u with ⟨v', before', job', number'⟩ | ⟨q', called', own', new'⟩
    · rw [← job, ← job']
      exact h.apart v before v' before' (by rw [number, number', same])
    · have old := h.tidy.numbered.tasks v before
      omega
    · have old := h.tidy.numbered.tasks v' before'
      omega
    · obtain rfl : q = q' := by simpa using called.symm.trans called'
      rw [own, own']
  recorded := h.recorded_react tick

end Attended

lemma Attended.play (h : c.Attended) (ticks : List Tick) : (c.play ticks).Attended := by
  induction ticks generalizing c with
  | nil => exact h
  | cons tick rest ih => exact ih (h.react tick)

end Cluster

end ControlPlane
