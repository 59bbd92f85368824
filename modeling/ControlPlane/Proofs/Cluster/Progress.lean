import Mathlib
import ControlPlane.Proofs.Cluster.Attended

/-!
# One execution for each registration

Whatever ticks and restarts come one after the other, a job that is not destroyed is launched at most
once, and its record only goes forward.  A record that has ended stays as it is, unless a task that
belongs to an earlier execution of the name still publishes.

* `launchesSince` — how often the executor has been called for a job since it was last destroyed.
* `World.Lawful` — the invariant of single steps: every record is sound, no job has been launched
  twice, and a job that has been launched has a record that says so.
* `World.Permits` — what a step must satisfy to keep it.
  The launch of an execution needs a record that says that the job is started, and that the executor
  has not been called yet; this is why a start is recorded before it is carried out.
* `World.Carries` — the steps between two worlds have carried the record of a job forward.
* `Cluster.Reports` — what a publication writes, whosever slot it finds.
* `World.Orderly` — the invariant between two turns, with what slots and tasks know.
* `Turn.Posts`, `Turn.Intrudes` — a task publishes in the slot of a job, and it is not that of the slot.
* `Orderly.run`, `Orderly.final` — runs keep the invariant, and when a record stays as it is.
-/

namespace ControlPlane

/-! ## Launches -/

namespace Step

/-- Whether a step calls the executor for a job. -/
def launches (job : String) (s : Step) : Bool :=
  match s.action with
  | .launch context => context.job = job
  | _ => false

/-- Whether a step removes a job from the store. -/
def purges (job : String) (s : Step) : Bool :=
  match s.action with
  | .purge key => key = job
  | _ => false

/-- The number of launches of a job after one more step. -/
def count (job : String) (n : ℕ) (s : Step) : ℕ :=
  if s.purges job then 0 else if s.launches job then n + 1 else n

end Step

/-- How often a job has been launched since it was last destroyed. -/
def launchesSince (job : String) (past : List Step) : ℕ := past.foldl (Step.count job) 0

lemma launchesSince_append (job : String) (past taken : List Step) :
    launchesSince job (past ++ taken) = taken.foldl (Step.count job) (launchesSince job past) :=
  List.foldl_append

/-- As long as a job is not destroyed, its launches add up. -/
lemma foldl_count {job : String} {taken : List Step} (kept : ∀ s ∈ taken, s.purges job = false)
    (n : ℕ) : taken.foldl (Step.count job) n = n + taken.countP (Step.launches job) := by
  induction taken generalizing n with
  | nil => rfl
  | cons s rest ih =>
      have first : Step.count job n s = if s.launches job then n + 1 else n := by
        simp [Step.count, kept s List.mem_cons_self]
      rw [List.foldl_cons, ih fun t member => kept t (List.mem_cons_of_mem _ member), first,
        List.countP_cons]
      split_ifs <;> omega

/-- A launch counts wherever it is taken. -/
lemma foldl_count_steps (job : String) (c : Cluster) (actions : List Action) (n : ℕ) :
    (c.steps actions).foldl (Step.count job) n
      = actions.foldl (fun n a => Step.count job n ⟨c, a⟩) n := by
  induction actions generalizing c n with
  | nil => rfl
  | cons a rest ih =>
      rw [Cluster.steps, List.foldl_cons, List.foldl_cons, ih]
      rfl

namespace World

/-! ## One step -/

/-- **What holds after every step**, also after the last one before a restart. -/
structure Lawful (w : World) : Prop where
  sound : w.cluster.Sound
  once : ∀ job, launchesSince job w.past ≤ 1
  started : ∀ job, launchesSince job w.past = 0
    ∨ ∃ r, w.cluster.Stores job r ∧ r.executionStarted = true

/-- What a step must satisfy. -/
def Permits (w : World) : Action → Prop
  | .putJob s => s.Sound s.name ∧ ∀ r, w.cluster.Stores s.name r → r.Precedes s
  | .launch context => launchesSince context.job w.past = 0
      ∧ ∃ r, w.cluster.Stores context.job r ∧ r.executionStarted = true
  | _ => True

variable {w : World}

lemma launchesSince_step (job : String) (a : Action) :
    launchesSince job (w.perform [a]).past
      = Step.count job (launchesSince job w.past) ⟨w.cluster, a⟩ :=
  launchesSince_append ..

/-- A step that neither writes a record nor calls the executor. -/
lemma Lawful.of_quiet (h : w.Lawful) {v : World}
    (records : ∀ job, v.cluster.store.getJob job = w.cluster.store.getJob job)
    (launches : ∀ job, launchesSince job v.past = launchesSince job w.past) : v.Lawful where
  sound := by
    simp only [Cluster.Sound, Cluster.Lacks, Cluster.Stores, records]
    exact h.sound
  once := by
    simp only [launches]
    exact h.once
  started := by
    simp only [launches, Cluster.Stores, records]
    exact h.started

/-- The record of a job after a record has been written. -/
lemma stores_putJob {s : Record} (fits : s.Fits) (job : String) :
    (w.perform [.putJob s]).cluster.store.getJob job
      = if s.name = job then .ok (some s) else w.cluster.store.getJob job :=
  w.cluster.store.getJob_putJob fits job

/-- A record is written that is sound, and no earlier than the one before. -/
lemma Lawful.putJob (h : w.Lawful) {s : Record} (sound : s.Sound s.name)
    (forward : ∀ r, w.cluster.Stores s.name r → r.Precedes s) : (w.perform [.putJob s]).Lawful := by
  have launches : ∀ job, launchesSince job (w.perform [.putJob s]).past
      = launchesSince job w.past := fun job => launchesSince_step ..
  constructor
  case sound =>
    intro job
    simp only [Cluster.Lacks, Cluster.Stores, stores_putJob sound.fits]
    split_ifs with here
    · exact .inr ⟨s, rfl, here ▸ sound⟩
    · exact h.sound job
  case once =>
    intro job
    rw [launches]
    exact h.once job
  case started =>
    intro job
    rw [launches]
    refine (h.started job).imp_right ?_
    rintro ⟨r, stored, started⟩
    simp only [Cluster.Stores, stores_putJob sound.fits]
    split_ifs with here
    · subst here
      exact ⟨s, rfl, (h.sound.record stored).started_mono sound (forward r stored) started⟩
    · exact ⟨r, stored, started⟩

/-- All is forgotten of a job, its launches too. -/
lemma Lawful.purge (h : w.Lawful) (key : String) : (w.perform [.purge key]).Lawful := by
  have record : ∀ job, (w.perform [.purge key]).cluster.store.getJob job
      = if job = key then .ok none else w.cluster.store.getJob job := fun job =>
    w.cluster.store.getJob_purge key job
  have launches : ∀ job, launchesSince job (w.perform [.purge key]).past
      = if job = key then 0 else launchesSince job w.past := by
    intro job
    rw [launchesSince_step]
    by_cases here : job = key
    · simp [Step.count, Step.purges, here]
    · simp [Step.count, Step.purges, Step.launches, here, Ne.symm here]
  constructor
  case sound =>
    intro job
    simp only [Cluster.Lacks, Cluster.Stores, record]
    split_ifs with here
    · exact .inl rfl
    · exact h.sound job
  case once =>
    intro job
    rw [launches]
    split_ifs
    · exact Nat.zero_le _
    · exact h.once job
  case started =>
    intro job
    simp only [launches, Cluster.Stores, record]
    split_ifs with here
    · exact .inl rfl
    · exact h.started job

/-- The first launch of a job. -/
lemma Lawful.launch (h : w.Lawful) {context : ExecutionContext}
    (none_yet : launchesSince context.job w.past = 0)
    (started : ∃ r, w.cluster.Stores context.job r ∧ r.executionStarted = true) :
    (w.perform [.launch context]).Lawful := by
  have launches : ∀ job, launchesSince job (w.perform [.launch context]).past
      = if context.job = job then 1 else launchesSince job w.past := by
    intro job
    rw [launchesSince_step]
    by_cases here : context.job = job
    · subst here
      simp [Step.count, Step.purges, Step.launches, none_yet]
    · simp [Step.count, Step.purges, Step.launches, here]
  constructor
  case sound => exact h.sound
  case once =>
    intro job
    rw [launches]
    split_ifs
    · exact le_rfl
    · exact h.once job
  case started =>
    intro job
    rw [launches]
    split_ifs with here
    · subst here
      exact .inr started
    · exact h.started job

/-- **A permitted step keeps the invariant.** -/
theorem Lawful.step (h : w.Lawful) {a : Action} (permitted : w.Permits a) :
    (w.perform [a]).Lawful := by
  cases a with
  | putJob s => exact h.putJob permitted.1 permitted.2
  | purge key => exact h.purge key
  | launch context => exact h.launch permitted.1 permitted.2
  | requestInterrupt job | removeSlot job | setOutcome job outcome | putResources job rs
  | putGraph job g | putAccumulators job counters | getJob job | listJobs | getResource job name
  | listResources job | getGraph job | getAccumulators job | findSlot job =>
      refine h.of_quiet (fun key => ?_) fun key => launchesSince_step ..
      exact Action.perform_getJob _ _ (by simp) key

theorem Lawful.perform (h : w.Lawful) {actions : List Action} (obeys : Obeys Permits w actions) :
    (w.perform actions).Lawful :=
  obeys.keeps (fun lawful permitted => lawful.step permitted) h

/-! ## The way of a record -/

/-- **The steps from one world to another carry the record of a job forward**; none of them removes
it. -/
def Carries (job : String) (w v : World) : Prop :=
  ∃ taken, v.past = w.past ++ taken ∧ (∀ s ∈ taken, s.purges job = false) ∧
    ∀ r, w.cluster.Stores job r → ∃ s, v.cluster.Stores job s ∧ r.Precedes s

namespace Carries

variable {job : String} {u v : World}

/-- Nothing has been written. -/
lemma of_store (past : v.past = w.past) (store : v.cluster.store = w.cluster.store) :
    Carries job w v := by
  refine ⟨[], by simp [past], by simp, fun r stored => ⟨r, ?_, .refl r⟩⟩
  rw [Cluster.Stores, store]
  exact stored

lemma trans (first : Carries job u v) (second : Carries job v w) : Carries job u w := by
  obtain ⟨taken, past, kept, forward⟩ := first
  obtain ⟨taken', past', kept', forward'⟩ := second
  refine ⟨taken ++ taken', by rw [past', past, List.append_assoc], ?_, fun r stored => ?_⟩
  · intro s member
    exact (List.mem_append.mp member).elim (kept s) (kept' s)
  · obtain ⟨s, stored, before⟩ := forward r stored
    obtain ⟨t, stored, before'⟩ := forward' s stored
    exact ⟨t, stored, before.trans before'⟩

/-- One permitted step. -/
lemma step {a : Action} (permitted : w.Permits a) (kept : a ≠ .purge job) :
    Carries job w (w.perform [a]) := by
  refine ⟨[⟨w.cluster, a⟩], rfl, ?_, fun r stored => ?_⟩
  · intro s member
    obtain rfl := List.mem_singleton.mp member
    cases a <;> simp_all [Step.purges]
  cases a with
  | putJob s =>
      obtain ⟨sound, forward⟩ := permitted
      simp only [Cluster.Stores, stores_putJob sound.fits]
      split_ifs with here
      · subst here
        exact ⟨s, rfl, forward r stored⟩
      · exact ⟨r, stored, .refl r⟩
  | purge key =>
      have other : job ≠ key := by
        rintro rfl
        exact kept rfl
      have record : (w.perform [.purge key]).cluster.store.getJob job = w.cluster.store.getJob job :=
        (w.cluster.store.getJob_purge key job).trans (if_neg other)
      exact ⟨r, record.trans stored, .refl r⟩
  | requestInterrupt key | removeSlot key | setOutcome key outcome | putResources key rs
  | putGraph key g | putAccumulators key counters | getJob key | listJobs | getResource key name
  | listResources key | getGraph key | getAccumulators key | findSlot key | launch context =>
      refine ⟨r, Eq.trans ?_ stored, .refl r⟩
      exact Action.perform_getJob _ _ (by simp) job

lemma perform {actions : List Action} (obeys : Obeys Permits w actions) (kept : .purge job ∉ actions) :
    Carries job w (w.perform actions) := by
  induction obeys with
  | nil => exact .of_store (by simp) (by simp)
  | cons first later ih =>
      rw [perform_cons]
      refine (step first ?_).trans (ih (List.not_mem_of_not_mem_cons kept))
      exact (List.ne_of_not_mem_cons kept).symm

end Carries

/-! ## Calls and publications obey -/

lemma Lawful.not_launched (h : w.Lawful) {job : String} {r : Record} (stored : w.cluster.Stores job r)
    (fresh : r.executionStarted = false) : launchesSince job w.past = 0 := by
  rcases h.started job with none_yet | ⟨s, stored', started⟩
  · exact none_yet
  · rw [stored.unique stored', started] at fresh
    simp at fresh

/-- A record may be written that is sound and comes after the one that is stored. -/
lemma permits_putJob {job : String} {r s : Record} (stored : w.cluster.Stores job r)
    (sound : s.Sound job) (forward : r.Precedes s) : w.Permits (.putJob s) := by
  obtain rfl := sound.name
  exact ⟨sound, fun r' stored' => stored'.unique stored ▸ forward⟩

/-- **Calls only take steps that are permitted.** -/
theorem Lawful.effect (h : w.Lawful) {job : String} {call : Call} {actions : List Action}
    (effect : w.cluster.Effect job call actions) : Obeys Permits w actions := by
  cases effect with
  | nothing => exact .nil
  | @create config missing fits now =>
      refine .cons ⟨.ofNew fits now, fun r stored => ?_⟩ .nil
      exact absurd stored missing.not_stores
  | @configure r config stored status fits now =>
      have sound := (h.sound.record stored).configure fits now
      exact .cons (permits_putJob stored sound (.of_registered status)) .nil
  | @deploy r valid stored status rs now =>
      have early : r.status.rank < 3 := by
        rcases status with status | status <;> simp [status, JobStatus.rank]
      have sound := (h.sound.record stored).advance .deployed early (by decide) now
      refine .cons trivial (.cons (permits_putJob stored sound (.of_config ?_ rfl)) .nil)
      rcases status with status | status <;> simp [status, Record.advance, JobStatus.rank]
  | @submit r stored status graph now =>
      have early : r.status.rank < 3 := by simp [status, JobStatus.rank]
      have sound := (h.sound.record stored).advance .submitted early (by decide) now
      refine .cons trivial (.cons (permits_putJob stored sound (.of_config ?_ rfl)) .nil)
      simp [status, Record.advance, JobStatus.rank]
  | @start r stored status fresh graph resources now =>
      have sound := (h.sound.record stored).start status now
      have forward : r.Precedes ({ r with executionStarted := true }.advance .running now.toNat) :=
        .of_config (by simp [status, Record.advance, JobStatus.rank]) rfl
      -- When the executor is called, the record already says so, and the history does not yet.
      refine .cons (permits_putJob stored sound forward) (.cons ⟨?_, ?_⟩ .nil)
      · rw [launchesSince_step]
        exact h.not_launched stored fresh
      · have recorded := (stores_putJob (w := w) sound.fits job).trans (if_pos sound.name)
        exact ⟨_, recorded, rfl⟩
  | interrupt found unfinished => exact .cons trivial .nil
  | destroy => exact .cons trivial (.cons trivial .nil)

end World

/-- **What a publication writes**: nothing, or an outcome and the counters of the slot that it finds. -/
inductive Cluster.Reports (c : Cluster) (execution now : ℕ) : List Action → Prop where
  | nothing : c.Reports execution now []
  | outcome {t : RunTask} {result : Option WorkResult} {slot : RunSlot} {r : Record}
      (found : c.findTask execution = some t) (phase : t.phase = .resolved result)
      (there : c.slots.find? t.job = some slot) (stored : c.Stores t.job r)
      (tells : r.Tells slot.outcome) :
      c.Reports execution now
        (outcomeSteps t.job r (Operation.outcomeOf slot.interrupted result) slot.accumulators now)

lemma Cluster.Attended.reports {c : Cluster} (h : c.Attended) (execution now : ℕ) :
    c.Reports execution now (c.publication execution now) := by
  unfold publication
  cases found : c.findTask execution with
  | none => exact .nothing
  | some t =>
      cases phase : t.phase with
      | working work => simpa [phase] using Reports.nothing
      | resolved result =>
          simp only [phase]
          cases there : c.slots.find? t.job with
          | none =>
              rw [Operation.plan_publish, there]
              exact .nothing
          | some slot =>
              obtain ⟨r, stored, tells⟩ := h.of_slot there
              rw [plan_publish_own there stored]
              exact .outcome found phase there stored tells

/-- **A publication only takes steps that are permitted.** -/
theorem World.Lawful.reports {w : World} (h : w.Lawful) {execution : ℕ} {now : UInt64}
    {steps : List Action} (reports : w.cluster.Reports execution now.toNat steps) :
    Obeys Permits w steps := by
  cases reports with
  | nothing => exact .nil
  | @outcome t result slot r found phase there stored tells =>
      have sound := (h.sound.record stored).finish tells.rank
        (Operation.outcomeOf slot.interrupted result) now
      have forward := Record.Precedes.of_config (s := r.finish _ now.toNat)
        (r.rank_finish r (Operation.outcomeOf slot.interrupted result) now.toNat) rfl
      exact .cons (permits_putJob stored sound forward) (.cons trivial (.cons trivial .nil))

/-! ## Turns -/

/-- **Where the steps of a tick come from**: they are those of a call or of a publication. -/
inductive Tick.Takes (c : Cluster) : Tick → List Action → Prop where
  | call {q : Request} {actions : List Action} (effect : c.Effect q.job q.call actions) :
      Takes c (.call q) actions
  | publish {execution : ℕ} {now : UInt64} {actions : List Action}
      (reports : c.Reports execution now.toNat actions) : Takes c (.publish execution now) actions
  | nothing {t : Tick} : Takes c t []

/-- The steps of a turn are those of its tick, or the first of them. -/
inductive Turn.Takes (c : Cluster) : Turn → List Action → Prop where
  | tick {t : Tick} {actions : List Action} (takes : t.Takes c actions) : Takes c (.tick t) actions
  | cut {t : Tick} {actions : List Action} (takes : t.Takes c actions) (n : ℕ) :
      Takes c (.cut t n) (actions.take n)

lemma Cluster.Attended.takes {c : Cluster} (h : c.Attended) (t : Tick) : t.Takes c (t.actions c) := by
  cases t with
  | call q => exact .call (q.effect c)
  | publish execution now => exact .publish (h.reports execution now.toNat)
  | resolve | write | openGate | exchange | restart => exact .nothing

/-- Only the call that destroys a job removes it from the store, in its second step. -/
lemma Tick.Takes.purge_mem {c : Cluster} {t : Tick} {actions : List Action} (takes : t.Takes c actions)
    {n : ℕ} {job : String} (member : .purge job ∈ actions.take n) : t.Destroys job ∧ 2 ≤ n := by
  cases takes with
  | @call q actions effect =>
      obtain ⟨key, call, now, fits⟩ := q
      cases effect with
      | destroy =>
          rcases n with _ | _ | n
          · simp at member
          · simp at member
          · obtain rfl : job = key := by simpa using member
            exact ⟨⟨rfl, rfl⟩, by omega⟩
      | nothing | create | configure | deploy | submit | start | interrupt =>
          have := List.mem_of_mem_take member
          simp at this
  | publish reports =>
      have := List.mem_of_mem_take member
      cases reports <;> simp [Cluster.outcomeSteps] at this
  | nothing => simp at member

lemma Turn.Takes.destroys {c : Cluster} {t : Turn} {actions : List Action} (takes : t.Takes c actions)
    {job : String} (member : .purge job ∈ actions) : t.Destroys job := by
  cases takes with
  | tick takes => exact (takes.purge_mem (n := actions.length) (by rwa [List.take_length])).1
  | cut takes n => exact takes.purge_mem member

/-! ## Posts and intrusions -/

/-- **A task publishes in the slot of a job**: it has resolved, and it finds a slot there. -/
inductive Tick.Posts (c : Cluster) (job : String) (execution : ℕ) (slot : RunSlot) : Tick → Prop where
  | publish {t : RunTask} {result : Option WorkResult} (found : c.findTask execution = some t)
      (phase : t.phase = .resolved result) (own : t.job = job)
      (there : c.slots.find? job = some slot) (now : UInt64) :
      Posts c job execution slot (.publish execution now)

/-- Also a publication of which only the first step is taken. -/
def Turn.Posts (c : Cluster) (job : String) (execution : ℕ) (slot : RunSlot) : Turn → Prop
  | .tick t => t.Posts c job execution slot
  | .cut t n => t.Posts c job execution slot ∧ 0 < n

/-- Whoever publishes in a slot finds it. -/
lemma Turn.Posts.there {c : Cluster} {job : String} {execution : ℕ} {slot : RunSlot} {t : Turn}
    (h : t.Posts c job execution slot) : c.slots.find? job = some slot := by
  have tick : ∀ {t : Tick}, t.Posts c job execution slot → c.slots.find? job = some slot := by
    rintro _ ⟨-, -, -, there⟩
    exact there
  cases t with
  | tick t => exact tick h
  | cut t n => exact tick h.1

lemma Turn.Posts.publishes {c : Cluster} {job : String} {execution : ℕ} {slot : RunSlot} {t : Turn}
    (h : t.Posts c job execution slot) :
    (∃ now, t = .tick (.publish execution now)) ∨ ∃ now n, t = .cut (.publish execution now) n := by
  cases t with
  | tick t =>
      cases h with
      | publish _ _ _ _ now => exact .inl ⟨now, rfl⟩
  | cut t n =>
      cases h.1 with
      | publish _ _ _ _ now => exact .inr ⟨now, n, rfl⟩

/-- **A task intrudes**: the slot in which it publishes is that of another execution. -/
def Turn.Intrudes (c : Cluster) (job : String) (t : Turn) : Prop :=
  ∃ execution slot, t.Posts c job execution slot ∧ slot.execution ≠ execution

/-- The step neither writes nor removes the record of a job. -/
def Action.Leaves (job : String) : Action → Prop
  | putJob r => r.name ≠ job
  | purge key => key ≠ job
  | _ => True

lemma Action.Leaves.of_subject {job : String} {a : Action} (other : a.subject? ≠ some job) :
    a.Leaves job := by
  cases a <;> simp_all [Action.Leaves, Action.subject?]

/-- The record of a job that is left alone. -/
lemma Cluster.getJob_after {job : String} {actions : List Action} (leaves : ∀ a ∈ actions, a.Leaves job)
    (c : Cluster) : (c.after actions).store.getJob job = c.store.getJob job := by
  induction actions generalizing c with
  | nil => rfl
  | cons a rest ih =>
      have first : (a.perform c).2.store.getJob job = c.store.getJob job := by
        have apart := leaves a List.mem_cons_self
        cases a with
        | putJob r => exact Store.getJob_putJob_of_ne _ apart
        | purge key => exact (Store.getJob_purge ..).trans (if_neg (Ne.symm apart))
        | _ => exact Action.perform_getJob c _ (by simp) job
      rw [after_cons, ih (fun b member => leaves b (List.mem_cons_of_mem a member)), first]

/-- A call on a job whose execution has ended leaves its record alone, unless it destroys the job. -/
lemma Cluster.Effect.leaves {c : Cluster} {job : String} {call : Call} {actions : List Action}
    (effect : c.Effect job call actions) {r : Record} (stored : c.Stores job r)
    (finished : r.status.isFinished = true) {n : ℕ} (kept : call = .destroy → n < 2) :
    ∀ a ∈ actions.take n, a.Leaves job := by
  cases effect with
  | nothing => simp
  | create missing => exact absurd stored missing.not_stores
  | configure stored' status => simp [stored.unique stored', status, JobStatus.isFinished] at finished
  | submit stored' status => simp [stored.unique stored', status, JobStatus.isFinished] at finished
  | start stored' status => simp [stored.unique stored', status, JobStatus.isFinished] at finished
  | deploy valid stored' status =>
      rcases status with status | status <;>
        simp [stored.unique stored', status, JobStatus.isFinished] at finished
  | interrupt =>
      intro a member
      obtain rfl := List.mem_singleton.mp (List.mem_of_mem_take member)
      trivial
  | destroy =>
      have early := kept rfl
      intro a member
      obtain rfl : a = .removeSlot job := by
        rcases n with _ | _ | n
        · simp at member
        · simpa using member
        · omega
      trivial

/-- **A tick leaves a finished record alone**, unless it destroys its job or publishes in its slot. -/
lemma Tick.Takes.leaves {c : Cluster} {t : Tick} {actions : List Action} (takes : t.Takes c actions)
    (tidy : c.Tidy) {job : String} {r : Record} (stored : c.Stores job r)
    (finished : r.status.isFinished = true) {n : ℕ} (kept : t.Destroys job → n < 2)
    (silent : ∀ execution slot, t.Posts c job execution slot → n = 0) :
    ∀ a ∈ actions.take n, a.Leaves job := by
  intro a member
  cases takes with
  | @call q actions effect =>
      by_cases own : q.job = job
      · subst own
        exact effect.leaves stored finished (fun destroy => kept ⟨rfl, destroy⟩) a member
      · refine .of_subject ?_
        simpa [(tidy.effect effect a (List.mem_of_mem_take member)).1] using own
  | @publish execution now actions reports =>
      cases reports with
      | nothing => simp at member
      | @outcome t result slot s found phase there stored' tells =>
          by_cases own : t.job = job
          · subst own
            obtain rfl := silent _ _ (.publish found phase rfl there now)
            simp at member
          · have label := (tidy.labelled stored').1
            have written := List.mem_of_mem_take member
            simp only [Cluster.outcomeSteps, List.mem_cons, List.not_mem_nil, or_false] at written
            rcases written with rfl | rfl | rfl
            · exact fun here => own (label.symm.trans here)
            · trivial
            · trivial
  | nothing => simp at member

lemma Turn.Takes.leaves {c : Cluster} {t : Turn} {actions : List Action} (takes : t.Takes c actions)
    (tidy : c.Tidy) {job : String} {r : Record} (stored : c.Stores job r)
    (finished : r.status.isFinished = true) (kept : ¬t.Destroys job)
    (silent : ∀ execution slot, ¬t.Posts c job execution slot) : ∀ a ∈ actions, a.Leaves job := by
  cases takes with
  | @tick t actions takes =>
      rw [← actions.take_length]
      exact takes.leaves tidy stored finished (fun destroys => absurd destroys kept)
        fun execution slot posts => absurd posts (silent execution slot)
  | @cut t actions takes n =>
      refine takes.leaves tidy stored finished (fun destroys => ?_) fun execution slot posts => ?_
      · by_contra late
        exact kept ⟨destroys, by omega⟩
      · by_contra some_step
        exact silent execution slot ⟨posts, by omega⟩

namespace World

/-! ## The invariant between two turns -/

/-- **What holds between two turns.** -/
structure Orderly (w : World) : Prop where
  lawful : w.Lawful
  attended : w.cluster.Attended

variable {w : World}

lemma Lawful.onCluster (h : w.Lawful) {c : Cluster} (store : c.store = w.cluster.store) :
    (w.onCluster c).Lawful :=
  h.of_quiet (fun job => congrArg (fun s : Store => s.getJob job) store) fun _ => rfl

/-- The steps of a tick are permitted. -/
lemma Lawful.takes (h : w.Lawful) {t : Tick} {actions : List Action}
    (takes : t.Takes w.cluster actions) : Obeys Permits w actions := by
  cases takes with
  | call effect => exact h.effect effect
  | publish reports => exact h.reports reports
  | nothing => exact .nil

/-- **Every turn is a list of permitted steps**, followed by a change to the cluster that leaves the
store alone. -/
lemma Orderly.turn_eq (h : w.Orderly) (t : Turn) : ∃ actions d,
    w.turn t = (w.perform actions).onCluster d ∧ d.store = (w.cluster.after actions).store
      ∧ Obeys Permits w actions ∧ t.Takes w.cluster actions := by
  cases t with
  | tick t =>
      have takes := h.attended.takes t
      exact ⟨_, _, rfl, w.cluster.react_store t, h.lawful.takes takes, .tick takes⟩
  | cut t n =>
      have takes := h.attended.takes t
      exact ⟨_, _, rfl, rfl, (h.lawful.takes takes).take n, .cut takes n⟩

/-- After a restart there are no slots and no tasks. -/
lemma Lawful.attended_restart (h : w.Lawful) : w.cluster.restart.Attended where
  tidy := by
    refine ⟨.restart, fun stored => ?_⟩
    have sound := h.sound.record stored
    exact ⟨sound.name, sound.fits⟩
  valid := by simp [Cluster.restart]
  own := by simp [Cluster.restart]
  apart := by simp [Cluster.restart]
  recorded := by simp [Cluster.restart, Cluster.run?]

/-- **One turn** keeps the invariant. -/
theorem Orderly.turn (h : w.Orderly) (t : Turn) : (w.turn t).Orderly := by
  obtain ⟨actions, d, eq, store, obeys, -⟩ := h.turn_eq t
  have lawful := h.lawful.perform obeys
  refine ⟨eq ▸ lawful.onCluster store, ?_⟩
  cases t with
  | tick t => exact h.attended.react t
  | cut t n => exact (h.lawful.perform ((h.lawful.takes (h.attended.takes t)).take n)).attended_restart

/-- A turn that does not destroy a job carries its record forward. -/
lemma Orderly.carries (h : w.Orderly) {t : Turn} {job : String} (kept : ¬t.Destroys job) :
    Carries job w (w.turn t) := by
  obtain ⟨actions, d, eq, store, obeys, takes⟩ := h.turn_eq t
  rw [eq]
  exact (Carries.perform obeys fun member => kept (takes.destroys member)).trans (.of_store rfl store)

theorem Orderly.run (h : w.Orderly) (turns : List Turn) : (w.run turns).Orderly := by
  induction turns generalizing w with
  | nil => exact h
  | cons t turns ih => exact ih (h.turn t)

lemma Orderly.carries_run (h : w.Orderly) {turns : List Turn} {job : String}
    (kept : ∀ t ∈ turns, ¬t.Destroys job) : Carries job w (w.run turns) := by
  induction turns generalizing w with
  | nil => exact .of_store rfl rfl
  | cons t turns ih =>
      have first := h.carries (kept t List.mem_cons_self)
      exact first.trans (ih (h.turn t) fun u member => kept u (List.mem_cons_of_mem t member))

/-- An empty store has no records, and nothing has happened. -/
lemma Orderly.start (executor : Executor) : (World.start executor).Orderly where
  lawful :=
    { sound := fun _ => .inl rfl
      once := fun _ => Nat.zero_le _
      started := fun _ => .inl rfl }
  attended := .start executor

/-- **A finished record stays** in a turn that neither destroys its job nor publishes in its slot. -/
theorem Orderly.final (h : w.Orderly) {t : Turn} {job : String} {r : Record}
    (stored : w.cluster.Stores job r) (finished : r.status.isFinished = true) (kept : ¬t.Destroys job)
    (silent : ∀ execution slot, ¬t.Posts w.cluster job execution slot) :
    (w.turn t).cluster.Stores job r := by
  obtain ⟨actions, d, eq, store, -, takes⟩ := h.turn_eq t
  rw [eq]
  have leaves := takes.leaves h.attended.tidy stored finished kept silent
  show d.store.getJob job = _
  rw [store, Cluster.getJob_after leaves]
  exact stored

end World

end ControlPlane
