import Mathlib
import ControlPlane.Proofs.Cluster.Stale
import ControlPlane.Proofs.Registry.Order

/-!
# Run slots and records tell the same story

The run slots are in memory and the records are in the store, and a start, a publication and a destruction
each change both, in several steps.  As long as there is no restart, nobody who looks between two of them
finds one without the other, also when the task of a destroyed job publishes in the slot of the next one.

* `Cluster.Concord` — what slot and record say about one job, in three cases.
* `Concord.call`, `Concord.publishTask`, `Concord.spares` — calls, publications and all that happens to
  other jobs keep this.
* `Cluster.activeJobs_eq` — the executions without an outcome are counted by the records that run.
* `Cluster.slots_tell_records` — hence slots and records agree after all ticks without a restart.
-/

namespace ControlPlane

/-- A record tells that an execution goes on exactly when there is no outcome yet. -/
lemma Record.Tells.running_iff {r : Record} {outcome : Option Job.Outcome} (h : r.Tells outcome) :
    outcome = none ↔ r.status = .running := by
  cases outcome with
  | none => exact ⟨fun _ => h, fun _ => rfl⟩
  | some outcome => cases outcome <;> simp [h.1, Operation.statusOf]

namespace Cluster

variable {c d : Cluster} {job : String}

/-- No name stands twice in a table. -/
lemma nodup_names {α : Type} (t : Table α) : (t.entries.map Prod.fst).Nodup :=
  List.pairwise_map.mpr (t.ordered.imp Table.ne_of_lt)

/-! ## One job -/

/-- **What slot and record say about a job**: the job is unknown, or it has not been started, or it has been
started and both tell how its execution stands. -/
inductive Concord (c : Cluster) (job : String) : Prop where
  | unknown (missing : c.Lacks job) (free : c.run? job = none)
  | waits {r : Record} (stored : c.Stores job r) (fresh : r.executionStarted = false)
      (early : r.status.rank < 3) (free : c.run? job = none)
  | started {r : Record} {s : RunSlot} (stored : c.Stores job r) (accepted : r.executionStarted = true)
      (found : c.run? job = some s) (tells : r.Tells s.outcome)

namespace Concord

lemma start (executor : Executor) (job : String) : (ofStore .empty executor).Concord job :=
  .unknown rfl rfl

/-- Nothing has happened to the job. -/
lemma of_same (h : c.Concord job) (record : d.store.getJob job = c.store.getJob job)
    (run : d.run? job = c.run? job) : d.Concord job := by
  cases h with
  | unknown missing free => exact .unknown (record.trans missing) (run.trans free)
  | waits stored fresh early free => exact .waits (record.trans stored) fresh early (run.trans free)
  | started stored accepted found tells =>
      exact .started (record.trans stored) accepted (run.trans found) tells

lemma spares (h : c.Concord job) (spares : Spares job c d) : d.Concord job :=
  h.of_same spares.record spares.run

/-- A job whose record says that it has not been started. -/
lemma waiting_of_rank (h : c.Concord job) {r : Record} (stored : c.Stores job r)
    (early : r.status.rank < 3) : r.executionStarted = false ∧ c.run? job = none := by
  cases h with
  | unknown missing free => exact absurd stored missing.not_stores
  | waits stored' fresh early free => exact ⟨stored'.unique stored ▸ fresh, free⟩
  | started stored' accepted found tells =>
      obtain rfl := stored.unique stored'
      exact absurd early (not_lt.mpr tells.rank)

lemma free_of_lacks (h : c.Concord job) (missing : c.Lacks job) : c.run? job = none := by
  cases h with
  | unknown missing free => exact free
  | waits stored => exact absurd stored missing.not_stores
  | started stored => exact absurd stored missing.not_stores

/-- The record of a job with a slot. -/
lemma of_slot (h : c.Concord job) {s : RunSlot} (found : c.run? job = some s) :
    ∃ r, c.Stores job r ∧ r.executionStarted = true ∧ r.Tells s.outcome := by
  cases h with
  | unknown missing free => simp [free] at found
  | waits stored fresh early free => simp [free] at found
  | started stored accepted found' tells =>
      obtain rfl := Option.some.inj (found.symm.trans found')
      exact ⟨_, stored, accepted, tells⟩

/-- The slot of a job whose record says that it has been started. -/
lemma slot_of_started (h : c.Concord job) {r : Record} (stored : c.Stores job r)
    (accepted : r.executionStarted = true) : ∃ s, c.run? job = some s ∧ r.Tells s.outcome := by
  cases h with
  | unknown missing free => exact absurd stored missing.not_stores
  | waits stored' fresh early free =>
      obtain rfl := stored.unique stored'
      simp [fresh] at accepted
  | started stored' accepted found tells =>
      obtain rfl := stored.unique stored'
      exact ⟨_, found, tells⟩

/-- Another record of a job that has not been started, and whatever else the store holds. -/
lemma rewrites (h : c.Concord job) (run : d.run? job = c.run? job) {r r' : Record} (stored : c.Stores job r)
    (early : r.status.rank < 3) (name : r'.name = job) (fits : r'.Fits)
    (same : r'.executionStarted = r.executionStarted) (early' : r'.status.rank < 3) :
    (Action.perform d (.putJob r')).2.Concord job := by
  obtain ⟨fresh, free⟩ := h.waiting_of_rank stored early
  exact .waits (stores_putJob d name fits) (same.trans fresh) early' (run.trans free)

/-- **Calls keep slot and record together.** -/
theorem call (h : c.Concord job) (tidy : c.Tidy) {call : Call} {actions : List Action}
    (effect : c.Effect job call actions) : (c.after actions).Concord job := by
  have written := tidy.effect effect
  cases effect with
  | nothing => exact h
  | create missing fits now =>
      have sound : Record.Sound job _ := .ofNew fits now
      exact .waits (stores_putJob c rfl sound.fits) rfl (by simp [Record.new, JobStatus.rank])
        (h.free_of_lacks missing)
  | @configure r config stored status fits now =>
      exact h.rewrites (d := c) rfl stored (by simp [status, JobStatus.rank]) (tidy.labelled stored).1
        (written _ List.mem_cons_self).2 rfl (by simp [status, JobStatus.rank])
  | @deploy r valid stored status rs now =>
      have early : r.status.rank < 3 := by
        rcases status with status | status <;> simp [status, JobStatus.rank]
      exact h.rewrites (d := { c with store := c.store.putResources job rs }) rfl stored early
        (tidy.labelled stored).1 (written _ (List.mem_cons_of_mem _ List.mem_cons_self)).2 rfl
        (by simp [Record.advance, JobStatus.rank])
  | @submit r stored status graph now =>
      exact h.rewrites (d := { c with store := c.store.putGraph job graph }) rfl stored
        (by simp [status, JobStatus.rank]) (tidy.labelled stored).1
        (written _ (List.mem_cons_of_mem _ List.mem_cons_self)).2 rfl
        (by simp [Record.advance, JobStatus.rank])
  | @start r stored status fresh graph resources now =>
      have fits := (written _ List.mem_cons_self).2
      exact .started (stores_putJob c (tidy.labelled stored).1 fits) rfl
        ((perform_run? _ _ job).trans (if_pos rfl)) rfl
  | @interrupt slot found unfinished =>
      have running : c.run? job = some slot.bare := run?_eq_some.mpr ⟨slot, found, rfl⟩
      obtain ⟨r, stored, accepted, tells⟩ := h.of_slot running
      refine .started ?_ accepted ?_ (s := { slot.bare with interrupted := true }) tells
      · exact (Action.perform_getJob _ _ (by simp) job).trans stored
      · simp [perform_run?, running]
  | destroy valid =>
      refine .unknown ?_ ?_
      · exact (Store.getJob_purge _ job job).trans (if_pos rfl)
      · simp [perform_run?]

/-- **A publication keeps slot and record together**, whosever slot it is that the task finds. -/
theorem publishTask (h : c.Concord job) (attended : c.Attended) (t : RunTask) (now : UInt64) :
    (c.publishTask t now.toNat).Concord job := by
  by_cases own : t.job = job
  · subst own
    cases phase : t.phase with
    | working work =>
        simp only [Cluster.publishTask, phase]
        exact h
    | resolved result =>
        cases there : c.slots.find? t.job with
        | none =>
            rw [publishTask_of_free phase there]
            exact h.of_same rfl rfl
        | some slot =>
            have running : c.run? t.job = some slot.bare := run?_eq_some.mpr ⟨slot, there, rfl⟩
            obtain ⟨r, stored, -, after⟩ := attended.publishTask_eq phase there now.toNat
            obtain ⟨r', stored', accepted, -⟩ := h.of_slot running
            obtain rfl := stored.unique stored'
            obtain ⟨name, fits⟩ := attended.tidy.labelled stored
            set outcome := Operation.outcomeOf slot.interrupted result
            have ended : (r.finish outcome now.toNat).Fits := (fits.tell _).advance _ now
            rw [after]
            refine .started (r := r.finish outcome now.toNat)
              (s := { slot.bare with outcome := some outcome }) ?_ accepted ?_ ⟨rfl, rfl⟩
            · exact stores_outcomeSteps name ended ..
            · show (c.after (outcomeSteps t.job r outcome _ _)).run? t.job = _
              simp [outcomeSteps, perform_run?, running]
  · exact h.spares (attended.tidy.spares_publishTask own now)

theorem react (h : c.Concord job) (attended : c.Attended) {tick : Tick} (goes_on : tick ≠ .restart) :
    (c.react tick).Concord job := by
  cases tick with
  | call q =>
      rw [react_call]
      by_cases own : q.job = job
      · subst own
        exact h.call attended.tidy (q.effect c)
      · exact h.spares (attended.spares_call own)
  | resolve execution => exact h.spares (.resolved c execution)
  | publish execution now =>
      simp only [Cluster.react]
      split
      · exact h.publishTask attended _ now
      · exact h
  | write execution w => exact h.spares (.writeSink c execution w)
  | openGate key => exact h.spares (.openGate c key)
  | exchange executor => exact h.of_same rfl rfl
  | restart => exact absurd rfl goes_on

/-- All ticks without a restart. -/
lemma play (h : c.Concord job) (attended : c.Attended) {ticks : List Tick}
    (unbroken : Tick.restart ∉ ticks) : (c.play ticks).Concord job := by
  induction ticks generalizing c with
  | nil => exact h
  | cons tick rest ih =>
      simp only [List.mem_cons, not_or] at unbroken
      exact ih (h.react attended (Ne.symm unbroken.1)) (attended.react tick) unbroken.2

end Concord

/-! ## All jobs together -/

/-- The records in the order of their names, and under which name each stands. -/
lemma listJobs_of_concord (h : ∀ job, c.Concord job) (tidy : c.Tidy) :
    ∃ rs, c.store.listJobs = .ok rs ∧ (rs.map Record.name).Nodup
      ∧ ∀ {job r}, c.Stores job r ↔ r ∈ rs ∧ r.name = job := by
  have recorded : ∀ e ∈ c.store.jobs.entries, ∃ r : Record,
      r.name = e.1 ∧ Row.decode Record.decoder e.2 = .ok r := by
    rintro ⟨key, row⟩ entry
    have row_found : c.store.getJob key = (Row.decode Record.decoder row).map some := by
      simp only [Store.getJob, Store.get, Table.mem_entries_iff.mp entry]
    cases read : Row.decode Record.decoder row with
    | ok r =>
        rw [read] at row_found
        exact ⟨r, (tidy.labelled row_found).1, rfl⟩
    | error e =>
        rw [read] at row_found
        cases h key with
        | unknown missing => exact absurd (row_found.symm.trans missing) (by simp [Except.map])
        | waits stored => exact absurd (row_found.symm.trans stored) (by simp [Except.map])
        | started stored => exact absurd (row_found.symm.trans stored) (by simp [Except.map])
  obtain ⟨rs, pairs⟩ := List.exists_forall₂ recorded
  refine ⟨rs, ?_, ?_, fun {job r} => ⟨fun stored => ?_, ?_⟩⟩
  · exact List.mapM_eq_ok_iff.mpr (List.forall₂_map_left_iff.mpr (pairs.imp fun _ _ both => both.2))
  · have names : List.Forall₂ (· = ·) (rs.map Record.name) (c.store.jobs.entries.map Prod.fst) :=
      List.forall₂_map_left_iff.mpr (List.forall₂_map_right_iff.mpr (pairs.flip.imp fun _ _ both => both.1))
    rw [List.forall₂_eq_eq_eq] at names
    rw [names]
    exact nodup_names c.store.jobs
  · cases found : c.store.jobs.find? job with
    | none => simp [Stores, Store.getJob, Store.get, found] at stored
    | some row =>
        obtain ⟨s, member, name, read⟩ := List.Forall₂.exists_of_mem pairs (Table.mem_entries_iff.mpr found)
        have here : c.Stores job s := by simp [Stores, Store.getJob, Store.get, found, read, Except.map]
        exact stored.unique here ▸ ⟨member, name⟩
  · rintro ⟨member, rfl⟩
    obtain ⟨⟨key, row⟩, entry, name, read⟩ := List.Forall₂.exists_of_mem pairs.flip member
    obtain rfl : r.name = key := name
    simp [Stores, Store.getJob, Store.get, Table.mem_entries_iff.mp entry, read, Except.map]

/-- **The executions without an outcome** are as many as the records that run. -/
theorem activeJobs_eq (h : ∀ job, c.Concord job) (tidy : c.Tidy) :
    ∃ rs, c.store.listJobs = .ok rs
      ∧ c.activeJobs = (rs.filter fun r => r.status = .running).length := by
  obtain ⟨rs, listed, once, among⟩ := listJobs_of_concord h tidy
  refine ⟨rs, listed, ?_⟩
  set busy := (c.slots.entries.filter fun e => !e.2.isFinished).map Prod.fst
  set running := (rs.filter fun r => r.status = .running).map Record.name
  have busy_once : busy.Nodup := (nodup_names c.slots).sublist (List.filter_sublist.map _)
  have running_once : running.Nodup := once.sublist (List.filter_sublist.map _)
  have same : ∀ key, key ∈ busy ↔ key ∈ running := by
    intro key
    constructor
    · intro member
      obtain ⟨⟨_, slot⟩, entry, rfl⟩ := List.mem_map.mp member
      obtain ⟨entry, unfinished⟩ := List.mem_filter.mp entry
      obtain ⟨r, stored, -, tells⟩ :=
        (h _).of_slot (run?_eq_some.mpr ⟨slot, Table.mem_entries_iff.mp entry, rfl⟩)
      obtain ⟨listed, name⟩ := among.mp stored
      have status := tells.running_iff.mp (by simpa [RunSlot.isFinished] using unfinished)
      exact List.mem_map.mpr ⟨r, List.mem_filter.mpr ⟨listed, decide_eq_true status⟩, name⟩
    · intro member
      obtain ⟨r, listed, rfl⟩ := List.mem_map.mp member
      obtain ⟨listed, status⟩ := List.mem_filter.mp listed
      have status : r.status = .running := by simpa using status
      have stored := among.mpr ⟨listed, rfl⟩
      cases h r.name with
      | unknown missing => exact absurd stored missing.not_stores
      | waits stored' fresh early =>
          obtain rfl := stored.unique stored'
          simp [status, JobStatus.rank] at early
      | @started r' s stored' accepted found tells =>
          obtain rfl := stored.unique stored'
          obtain ⟨slot, there, rfl⟩ := run?_eq_some.mp found
          have none_yet : slot.outcome = none := tells.running_iff.mpr status
          refine List.mem_map.mpr ⟨(r.name, slot), List.mem_filter.mpr ⟨?_, ?_⟩, rfl⟩
          · exact Table.mem_entries_iff.mpr there
          · simp [RunSlot.isFinished, none_yet]
  have count := ((List.perm_ext_iff_of_nodup busy_once running_once).mpr same).length_eq
  simpa [busy, running, activeJobs, Table.values, List.filter_map, Function.comp_def] using count

/-- **Slots and records agree.**  Take any executor and any ticks of a cluster over an empty store among
which there is no restart.  A job has a slot exactly when it has a record which says that an execution has
been accepted; the outcome in the slot is missing exactly when the record runs, and otherwise the record has
its status and its reason.  So the executions without an outcome are as many as the records that run. -/
theorem slots_tell_records (executor : Executor) {ticks : List Tick} (unbroken : Tick.restart ∉ ticks) :
    let c := (ofStore .empty executor).play ticks
    (∀ job, (∃ slot, c.slots.find? job = some slot)
        ↔ ∃ r, c.Stores job r ∧ r.executionStarted = true)
    ∧ (∀ job slot r, c.slots.find? job = some slot → c.Stores job r →
        (slot.outcome = none ↔ r.status = .running)
        ∧ ∀ outcome, slot.outcome = some outcome →
          r.status = Operation.statusOf outcome ∧ r.failure = Operation.reasonOf outcome)
    ∧ ∃ rs, c.store.listJobs = .ok rs
        ∧ c.activeJobs = (rs.filter fun r => r.status = .running).length := by
  intro c
  have begins := Attended.start executor
  have concord : ∀ job, c.Concord job := fun job => (Concord.start executor job).play begins unbroken
  refine ⟨fun job => ⟨?_, ?_⟩, fun job slot r found stored => ?_, ?_⟩
  · rintro ⟨slot, found⟩
    obtain ⟨r, stored, accepted, -⟩ := (concord job).of_slot (run?_eq_some.mpr ⟨slot, found, rfl⟩)
    exact ⟨r, stored, accepted⟩
  · rintro ⟨r, stored, accepted⟩
    obtain ⟨s, found, -⟩ := (concord job).slot_of_started stored accepted
    obtain ⟨slot, there, -⟩ := run?_eq_some.mp found
    exact ⟨slot, there⟩
  · obtain ⟨r', stored', -, tells⟩ := (concord job).of_slot (run?_eq_some.mpr ⟨slot, found, rfl⟩)
    obtain rfl := stored.unique stored'
    refine ⟨tells.running_iff, fun outcome ended => ?_⟩
    rw [RunSlot.bare_outcome, ended] at tells
    exact tells
  · exact activeJobs_eq concord (begins.play ticks).tidy

/-- A job that has been destroyed and started again, while the task of its first life has not published
yet: the slot waits for an outcome, and the record runs. -/
theorem second_life_told_twice :
    let ticks := secondLife waiting
    let c := (ofStore .empty (setting (.long 1))).play ticks
    Tick.restart ∉ ticks
      ∧ (∃ slot, c.slots.find? "a" = some slot ∧ slot.execution = 1 ∧ slot.outcome = none)
      ∧ (∃ r, c.Stores "a" r ∧ r.executionStarted = true ∧ r.status = .running)
      ∧ ∃ rs, c.store.listJobs = .ok rs
        ∧ c.activeJobs = (rs.filter fun r => r.status = .running).length := by
  have unbroken : Tick.restart ∉ secondLife waiting := by
    simp [secondLife, openingTicks, openingRequests]
  have agreement := slots_tell_records (setting (.long 1)) unbroken
  have life := play_secondLife waiting
  simp only
  generalize (ofStore .empty (setting (.long 1))).play (secondLife waiting) = c at agreement life ⊢
  obtain ⟨slot_iff, agree, count⟩ := agreement
  obtain ⟨-, found, -⟩ := life
  obtain ⟨r, stored, accepted⟩ := (slot_iff "a").mp ⟨_, found⟩
  exact ⟨unbroken, ⟨_, found, rfl, rfl⟩,
    ⟨r, stored, accepted, (agree "a" _ r found stored).1.mp rfl⟩, count⟩

end Cluster

end ControlPlane
