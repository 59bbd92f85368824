import Mathlib
import ControlPlane.Proofs.Cluster.Attended
import ControlPlane.Proofs.Cluster.Opening
import ControlPlane.Proofs.Registry.Resources

/-!
# Tasks that publish late

A task resolves, and later it publishes.  In between anything may happen to its job: a destruction does
not stop a task that has resolved, and the task looks for the slot of its job by name.

* `Cluster.Resolves`, `Cluster.Since` — a tick at which a task resolves, and what has become of its slot.
* `Cluster.publishes_own_iff` — a task publishes for its own execution exactly when its job has not been
  destroyed since it resolved.
-/

namespace ControlPlane

namespace Cluster

variable {c d : Cluster} {job : String}

/-! ## Whose outcome a task publishes -/

/-- A task of a job is at work after some ticks, and the next tick lets it resolve. -/
def Resolves (c : Cluster) (early : List Tick) (n : ℕ) (job : String) (result : Option WorkResult) :
    Prop :=
  (∃ u work, (c.play early).findTask n = some u ∧ u.job = job ∧ u.phase = .working work) ∧
  ∃ v, (c.play (early ++ [.resolve n])).findTask n = some v ∧ v.phase = .resolved result

/-- **What has become of the slot** of a task since it resolved. -/
structure Since (c : Cluster) (late : List Tick) (t : RunTask) : Prop where
  /-- The slot is its own exactly when the job has not been destroyed. -/
  slot : ∀ m, c.number? t.job = some m →
    t.execution ≤ m ∧ (m = t.execution ↔ ∀ tick ∈ late, ¬tick.Destroys t.job)
  free : c.number? t.job = none → ∃ tick ∈ late, tick.Destroys t.job

/-- One tick more. -/
lemma Since.react (h : c.Attended) {late : List Tick} {u t : RunTask} (since : c.Since late u)
    (member : u ∈ c.tasks) (job : u.job = t.job) (same : u.execution = t.execution) {tick : Tick}
    (goes_on : tick ≠ .restart) : (c.react tick).Since (late ++ [tick]) t := by
  have valid := h.valid u member
  obtain ⟨slot, free⟩ := since
  rw [job] at valid slot free
  rw [same] at slot
  by_cases destroys : tick.Destroys t.job
  · have gone := h.number?_of_destroys destroys valid
    exact ⟨fun m found => by simp [gone] at found, fun _ => ⟨tick, by simp, destroys⟩⟩
  · rcases h.number?_react destroys goes_on with number | ⟨none_before, number⟩
    · constructor
      · intro m found
        rw [number] at found
        simpa [or_imp, forall_and, destroys] using slot m found
      · intro found
        rw [number] at found
        obtain ⟨before, earlier, destroyed⟩ := free found
        exact ⟨before, List.mem_append_left _ earlier, destroyed⟩
    · -- A new execution: the job has been destroyed before, and the number is a later one.
      obtain ⟨before, earlier, destroyed⟩ := free none_before
      have old := h.tidy.numbered.tasks u member
      constructor
      · intro m found
        obtain rfl := Option.some.inj (number.symm.trans found)
        refine ⟨by omega, fun own => by omega, fun never => ?_⟩
        exact absurd destroyed (never before (List.mem_append_left _ earlier))
      · intro found
        simp [number] at found

/-- **Where a resolved task comes from**, and what has become of its slot. -/
theorem Attended.since (h : c.Attended) (ticks : List Tick)
    (begins : ∀ t ∈ c.tasks, RunTask.isWorking t = true) {t : RunTask}
    (member : t ∈ (c.play ticks).tasks) {result : Option WorkResult} (phase : t.phase = .resolved result) :
    ∃ early late, ticks = early ++ .resolve t.execution :: late
      ∧ c.Resolves early t.execution t.job result ∧ (c.play ticks).Since late t := by
  induction ticks using List.reverseRecOn generalizing t with
  | nil =>
      have working := begins t member
      simp [RunTask.isWorking, phase] at working
  | append_singleton ticks tick ih =>
      have attended := h.play ticks
      rw [play_concat] at member ⊢
      have goes_on : tick ≠ .restart := by
        rintro rfl
        simp [Cluster.react, restart] at member
      cases attended.descends member with
      | stays before job same before_phase left =>
          obtain ⟨early, late, split, resolves, since⟩ := ih before (before_phase.trans phase)
          rw [job, same] at resolves
          exact ⟨early, late ++ [tick], by simp [split, same], resolves,
            since.react attended before job same goes_on⟩
      | @works u work carried found job before_phase here =>
          have own := attended.own u (List.mem_of_find?_eq_some found)
            (by simp [RunTask.isWorking, before_phase])
          have number : ((c.play ticks).resolved t.execution).number? t.job
              = (c.play ticks).number? t.job := (Spares.resolved _ _).number?
          rw [job, findTask_execution found] at own
          rw [own] at number
          refine ⟨ticks, [], by rw [carried], ⟨⟨u, work, found, job, before_phase⟩, t, ?_, phase⟩, ?_⟩
          · rw [play_concat, ← carried]
            exact here
          · subst carried
            show Since (Cluster.resolved _ _) _ _
            constructor
            · intro m there
              obtain rfl := Option.some.inj (number.symm.trans there)
              simp
            · intro free
              simp [number] at free
      | starts called own new working => simp [RunTask.isWorking, phase] at working

/-- **Whose outcome a task publishes.**  Take any executor, any ticks of a cluster over an empty store and
any task that has resolved after them and now publishes.  If there is no slot under the name of its job, the
job has been destroyed since, and nothing is written.  Otherwise the outcome goes into this slot, into the
record of the job, and with it the counters of the slot; and the slot is that of the task's own execution
exactly when the job has not been destroyed since the task resolved. -/
theorem publishes_own_iff {executor : Executor} {ticks : List Tick} {c : Cluster}
    (reached : (ofStore .empty executor).play ticks = c) {n : ℕ} {t : RunTask}
    {result : Option WorkResult} (found : c.findTask n = some t) (phase : t.phase = .resolved result)
    (now : ℕ) :
    ∃ early late, ticks = early ++ .resolve n :: late
      ∧ (ofStore .empty executor).Resolves early n t.job result
      ∧ (c.slots.find? t.job = none → (∃ tick ∈ late, tick.Destroys t.job)
        ∧ c.publishTask t now = { c with tasks := c.tasks.filter fun u => u.execution != n })
      ∧ ∀ slot, c.slots.find? t.job = some slot →
        n ≤ slot.execution ∧ (slot.execution = n ↔ ∀ tick ∈ late, ¬tick.Destroys t.job)
        ∧ ∃ r, c.Stores t.job r ∧ c.publishTask t now
          = { c.after (outcomeSteps t.job r (Operation.outcomeOf slot.interrupted result)
                slot.accumulators now) with tasks := c.tasks.filter fun u => u.execution != n } := by
  subst reached
  obtain rfl := findTask_execution found
  obtain ⟨early, late, split, resolves, slot_since, free_since⟩ :=
    (Attended.start executor).since ticks (by simp [ofStore]) (List.mem_of_find?_eq_some found) phase
  have attended := (Attended.start executor).play ticks
  refine ⟨early, late, split, resolves, fun free => ?_, fun slot there => ?_⟩
  · exact ⟨free_since (number?_eq_none.mpr free), publishTask_of_free phase free now⟩
  · obtain ⟨later, own⟩ := slot_since slot.execution (number?_eq_some.mpr ⟨slot, there, rfl⟩)
    obtain ⟨r, stored, -, after⟩ := attended.publishTask_eq phase there now
    exact ⟨later, own, r, stored, after⟩

/-- Whoever waits for an execution without an outcome goes on waiting. -/
lemma poll_untold {slot : RunSlot} (own : c.slots.find? job = some slot)
    (untold : c.published.lookup slot.execution = none) :
    Waiter.poll c (.waiting job slot.execution) = none := by
  simp [Waiter.poll, Waiter.isKept, untold, own]

/-- What is told afterwards to whoever waits for the execution in the slot, and what the record says. -/
lemma told_after_publication {t : RunTask} {slot : RunSlot} {r : Record} {outcome : Job.Outcome}
    {a : Accumulators} {now : ℕ} {left : List RunTask} (own : c.slots.find? t.job = some slot)
    (ended : (r.finish outcome now).Sound t.job)
    (after : c.publishTask t now
      = { c.after (outcomeSteps t.job r outcome a now) with tasks := left }) :
    Waiter.poll (c.publishTask t now) (.waiting t.job slot.execution) = some (.ok outcome)
      ∧ (c.publishTask t now).Stores t.job (r.finish outcome now) := by
  rw [after]
  constructor
  · have told : (c.after (outcomeSteps t.job r outcome a now)).published.lookup slot.execution
        = some outcome := by
      simp [outcomeSteps, Action.perform_published, Action.perform_find?, own]
    simp [Waiter.poll, told]
  · exact stores_outcomeSteps ended.name ended.fits ..

/-! ## A task that ends its successor -/

/-- An execution that waits before it is finished. -/
def waiting : Executor := fun _ => ⟨[], .wait (.finish (.ok ()))⟩

/-- A job that is started, destroyed after its task has resolved, and started again by another executor. -/
def secondLife (other : Executor) : List Tick :=
  openingTicks "a" 0 ++ [.resolve 0, .call ⟨"a", .destroy, 0, trivial⟩, .exchange other]
    ++ openingTicks "a" 0

/-- A job that is started, and destroyed after its task has resolved. -/
def firstLife : List Tick := openingTicks "a" 0 ++ [.resolve 0, .call ⟨"a", .destroy, 0, trivial⟩]

/-- What there is then: the task is left. -/
lemma play_firstLife :
    let c := (ofStore .empty (setting (.long 1))).play firstLife
    c.tasks = [⟨0, "a", false, .resolved (some (.ok ()))⟩] ∧ (∀ key, c.slots.find? key = none)
      ∧ c.nextExecution = 1 ∧ c.published = [] ∧ c.Lacks "a" ∧ c.store.listResources "a" = .ok [] := by
  have first : (ofStore .empty (setting (.long 1))).play (openingTicks "a" 0) = _ :=
    play_openingTicks (c := ofStore .empty (setting (.long 1))) rfl (by decide) rfl 0
  have slots := opened_find? (ofStore .empty (setting (.long 1))) "a" (0 : UInt64).toNat
  have tasks := opened_tasks (ofStore .empty (setting (.long 1))) "a" (0 : UInt64).toNat
  have next := opened_nextExecution (ofStore .empty (setting (.long 1))) "a" (0 : UInt64).toNat
  have told := opened_published (ofStore .empty (setting (.long 1))) "a" (0 : UInt64).toNat
  rw [firstLife, play_append, first]
  generalize (ofStore .empty (setting (.long 1))).opened "a" (0 : UInt64).toNat = c at slots tasks next told ⊢
  have own : c.slots.find? "a" = some ⟨0, false, none, Accumulators.write .empty [.set "x" (.long 1)]⟩ := by
    rw [slots, if_pos rfl]
    rfl
  have found : c.findTask 0 = some ⟨0, "a", false, .working (.finish (.ok ()))⟩ := by
    rw [findTask, tasks]
    rfl
  have resolved : c.react (.resolve 0) = _ := resolved_finished found rfl own rfl rfl
  have destroyed : (c.react (.resolve 0)).react (.call ⟨"a", .destroy, 0, trivial⟩)
      = (c.react (.resolve 0)).after [.removeSlot "a", .purge "a"] := by
    rw [react_call, Request.actions, Call.actions_eq]
    rfl
  rw [play_cons, play_cons, destroyed, resolved]
  refine ⟨?_, fun key => ?_, ?_, ?_, ?_, Store.listResources_purge _ "a"⟩
  · simp [play, Action.perform_tasks, removeSlot, own, tasks, replaceTask, RunTask.isWorking, ofStore]
  · simp only [play, List.foldl_nil, after_cons, after_nil, Action.perform_find?, replaceTask_slots, slots]
    split_ifs <;> rfl
  · simp [play, Action.perform_nextExecution, replaceTask, next, ofStore]
  · simp [play, Action.perform_published, replaceTask, told, ofStore]
  · simp [play, Lacks, Action.perform_getJob]

/-- What there is after the next opening, where a task of the job is left. -/
lemma play_again {d : Cluster} {t : RunTask} (tasks : d.tasks = [t]) (next : d.nextExecution = 1)
    (told : d.published = []) (missing : d.Lacks "a") (unlisted : d.store.listResources "a" = .ok [])
    (other : Executor) :
    let c := Cluster.play { d with executor := other } (openingTicks "a" 0)
    let l := other (plainContext "a")
    c.tasks = [t, ⟨1, "a", false, .working l.work⟩]
      ∧ c.slots.find? "a" = some ⟨1, false, none, Accumulators.write .empty l.atOnce⟩
      ∧ c.published = [] ∧ c.Stores "a" (openRecord "a" (0 : UInt64).toNat) := by
  intro c l
  have again : c = { d with executor := other }.opened "a" (0 : UInt64).toNat :=
    play_openingTicks (c := { d with executor := other }) missing (by decide) unlisted 0
  rw [again]
  refine ⟨?_, ?_, ?_, opened_stores ..⟩
  · simp only [opened_tasks, tasks, next]
    rfl
  · simp only [opened_find?, next]
    rfl
  · rw [opened_published, told]

/-- What there is then: the old task has resolved, and the new execution is at work. -/
lemma play_secondLife (other : Executor) :
    let c := (ofStore .empty (setting (.long 1))).play (secondLife other)
    let l := other (plainContext "a")
    c.tasks = [⟨0, "a", false, .resolved (some (.ok ()))⟩, ⟨1, "a", false, .working l.work⟩]
      ∧ c.slots.find? "a" = some ⟨1, false, none, Accumulators.write .empty l.atOnce⟩
      ∧ c.published = [] ∧ c.Stores "a" (openRecord "a" (0 : UInt64).toNat) := by
  obtain ⟨tasks, -, next, told, missing, unlisted⟩ := play_firstLife
  rw [show secondLife other = firstLife ++ .exchange other :: openingTicks "a" 0 by
    simp [secondLife, firstLife], play_append, play_cons, react_exchange]
  exact play_again tasks next told missing unlisted other

/-- What there is when a task has published in a slot. -/
lemma react_publish_own {n : ℕ} {t : RunTask} {slot : RunSlot} {r : Record} {result : Option WorkResult}
    (found : c.findTask n = some t) (phase : t.phase = .resolved result)
    (own : c.slots.find? t.job = some slot) (stored : c.Stores t.job r) (sound : r.Sound t.job)
    (started : 3 ≤ r.status.rank) (now : UInt64) :
    let d := c.react (.publish n now)
    let outcome := Operation.outcomeOf slot.interrupted result
    d.tasks = c.tasks.filter (fun u => u.execution != n)
      ∧ d.slots.find? t.job = some { slot with outcome := some outcome }
      ∧ d.Stores t.job (r.finish outcome now.toNat)
      ∧ Waiter.poll d (.waiting t.job slot.execution) = some (.ok outcome) := by
  intro d outcome
  have ended := sound.finish started outcome now
  have after : c.publishTask t now.toNat
      = { c.after (outcomeSteps t.job r outcome slot.accumulators now.toNat) with
          tasks := c.tasks.filter fun u => u.execution != n } := by
    rw [publishTask_eq phase now.toNat, plan_publish_own own stored, findTask_execution found]
  obtain ⟨told, record⟩ := told_after_publication own ended after
  rw [show d = c.publishTask t now.toNat from react_publish found now]
  refine ⟨by rw [after], ?_, record, told⟩
  simp [after, outcomeSteps, Action.perform_find?, own, outcome]

/-- An interrupt is looked at before the work. -/
lemma resolved_interrupted {execution : ℕ} {t : RunTask} {work : Work} {slot : RunSlot}
    (found : c.findTask execution = some t) (phase : t.phase = .working work)
    (own : c.slots.find? t.job = some slot) (same : slot.execution = t.execution)
    (asked : slot.interrupted = true) :
    c.resolved execution = c.replaceTask { t with phase := .resolved none } := by
  have stops : c.isInterrupted t = true := by simp [isInterrupted, own, same, asked]
  simp only [resolved, found, resolveTask, phase, stops, if_true]

/-- **An execution that is asked to stop** is interrupted when it is carried on. -/
lemma play_closing_interrupted {execution : ℕ} {t : RunTask} {work : Work} {slot : RunSlot} {r : Record}
    (found : c.findTask execution = some t) (phase : t.phase = .working work)
    (own : c.slots.find? t.job = some slot) (same : slot.execution = t.execution)
    (stored : c.Stores t.job r) (sound : r.Sound t.job) (started : 3 ≤ r.status.rank) (now : UInt64) :
    let d := (c.requestInterrupt t.job).play (closingTicks execution now)
    d.slots.find? t.job = some { slot with interrupted := true, outcome := some .interrupted }
      ∧ d.Stores t.job (r.finish .interrupted now.toNat)
      ∧ Waiter.poll d (.waiting t.job slot.execution) = some (.ok .interrupted) := by
  intro d
  have asked : (c.requestInterrupt t.job).slots.find? t.job = some { slot with interrupted := true } := by
    simp [requestInterrupt, own]
  have still : (c.requestInterrupt t.job).findTask execution = some t := by
    simpa [requestInterrupt, findTask] using found
  have record : (c.requestInterrupt t.job).Stores t.job r := by
    rwa [Stores, requestInterrupt, modifySlot_store]
  have again := findTask_replaceTask (u := { t with phase := .resolved none }) _ still
    (show t.execution = execution from findTask_execution found)
  have resolved : (c.requestInterrupt t.job).react (.resolve execution) = _ :=
    resolved_interrupted still phase asked same rfl
  have closed : d = _ := play_cons _ (.resolve execution) [.publish execution now]
  rw [closed, resolved, play_cons, play, List.foldl_nil]
  exact (react_publish_own again rfl asked record sound started now).2

/-- **The tasks that are left** are those that have resolved. -/
lemma Attended.mem_tasks_destroyed (h : c.Attended) (t : RunTask) :
    t ∈ (c.after [.removeSlot job, .purge job]).tasks ∧ t.job = job
      ↔ t ∈ c.tasks ∧ t.job = job ∧ RunTask.isWorking t = false := by
  have tasks : (c.after [.removeSlot job, .purge job]).tasks = (c.removeSlot job).tasks := by
    simp [Action.perform_tasks]
  rw [tasks, ← and_assoc, and_right_comm]
  refine and_congr_left fun own => ?_
  subst own
  have busy : t ∈ c.tasks → RunTask.isWorking t = true → c.number? t.job = some t.execution := h.own t
  constructor
  · intro left
    obtain ⟨before, spared⟩ := mem_removeSlot left
    refine ⟨before, eq_false_of_ne_true fun working => spared working (busy before working)⟩
  · rintro ⟨before, idle⟩
    unfold removeSlot
    split
    · exact List.mem_filter.mpr ⟨before, by simp [idle]⟩
    · exact before

/-- **A task that is left of a destroyed job** publishes in the slot of the next execution. -/
lemma Attended.late_publication (h : c.Attended) (free : c.slots.find? job = none) {t : RunTask}
    (member : t ∈ c.tasks) (own : t.job = job) (now : UInt64) :
    let d := (c.opened job now.toNat).react (.publish t.execution now)
    ∃ slot r, d.slots.find? job = some slot ∧ slot.outcome ≠ none ∧ d.Stores job r ∧ r.status ≠ .running := by
  obtain ⟨u, found⟩ : ∃ u, c.findTask t.execution = some u :=
    Option.isSome_iff_exists.mp (List.find?_isSome.mpr ⟨t, member, by simp⟩)
  have here := List.mem_of_find?_eq_some found
  obtain rfl : u.job = job := (h.apart u here t member (findTask_execution found)).trans own
  cases phase : u.phase with
  | working work =>
      have slot := h.own u here (by simp [RunTask.isWorking, phase])
      rw [number?_eq_none.mpr free] at slot
      simp at slot
  | resolved result =>
      have still : (c.opened u.job now.toNat).findTask t.execution = some u := by
        rw [findTask, opened_tasks, List.find?_append, show c.tasks.find? _ = some u from found]
        rfl
      have there := (opened_find? c u.job now.toNat u.job).trans (if_pos rfl)
      obtain ⟨-, slot, record, -⟩ :=
        react_publish_own still phase there (opened_stores c u.job now) (openRecord_sound u.job now) (le_refl 3) now
      refine ⟨_, _, slot, by simp, record, ?_⟩
      rcases Operation.outcomeOf false result with _ | _ | _ <;>
        simp [Record.finish, Record.advance, Operation.statusOf]

/-- **Without such a task** nobody publishes: the new execution is at work. -/
lemma react_publish_opened {e now : ℕ} {later : UInt64} (none_left : ∀ t ∈ c.tasks, t.execution ≠ e) :
    (c.opened job now).react (.publish e later) = c.opened job now := by
  cases found : (c.opened job now).findTask e with
  | none => simp only [react, found]
  | some t =>
      have same := findTask_execution found
      have member := List.mem_of_find?_eq_some found
      rw [opened_tasks] at member
      rcases List.mem_append.mp member with old | new
      · exact absurd same (none_left t old)
      · obtain rfl := List.mem_singleton.mp new
        rw [react_publish found, publishTask]

/-- What there is when the old task has published: its outcome is that of the new execution. -/
lemma react_late_task (other : Executor) :
    let d := ((ofStore .empty (setting (.long 1))).play (secondLife other)).react (.publish 0 0)
    let l := other (plainContext "a")
    d.tasks = [⟨1, "a", false, .working l.work⟩]
      ∧ d.slots.find? "a" = some ⟨1, false, some .completed, Accumulators.write .empty l.atOnce⟩
      ∧ d.Stores "a" ((openRecord "a" (0 : UInt64).toNat).finish .completed (0 : UInt64).toNat) := by
  have life := play_secondLife other
  generalize (ofStore .empty (setting (.long 1))).play (secondLife other) = c at life ⊢
  obtain ⟨tasks, own, -, stored⟩ := life
  have found : c.findTask 0 = some ⟨0, "a", false, .resolved (some (.ok ()))⟩ := by
    rw [findTask, tasks]
    rfl
  obtain ⟨left, slot, record, -⟩ := react_publish_own found rfl own stored (openRecord_sound "a" 0) (le_refl 3) 0
  refine ⟨?_, slot, record⟩
  rw [left, tasks]
  simp

/-- The outcome of an execution that has been destroyed, as that of the next one: its task has not
resolved, but whoever waits for it is told that it has completed, and so does the record. -/
theorem late_task_ends_its_successor :
    let c := (ofStore .empty (setting (.long 1))).play (secondLife waiting)
    let d := c.react (.publish 0 0)
    (∃ r, c.Stores "a" r ∧ r.status = .running) ∧ Waiter.poll c (.waiting "a" 1) = none
      ∧ d.tasks = [⟨1, "a", false, .working (.wait (.finish (.ok ())))⟩]
      ∧ Waiter.poll d (.waiting "a" 1) = some (.ok .completed)
      ∧ ∃ r, d.Stores "a" r ∧ r.status = .completed := by
  have life := play_secondLife waiting
  generalize reached : (ofStore .empty (setting (.long 1))).play (secondLife waiting) = c at life ⊢
  obtain ⟨tasks, own, untold, stored⟩ := life
  set t : RunTask := ⟨0, "a", false, .resolved (some (.ok ()))⟩
  have found : c.findTask 0 = some t := by
    rw [findTask, tasks]
    rfl
  have reacts := react_publish found 0
  obtain ⟨early, late, -, -, -, published⟩ := publishes_own_iff reached found rfl (0 : UInt64).toNat
  obtain ⟨-, -, r, stored', after⟩ := published _ own
  obtain rfl := stored.unique stored'
  have ended := (openRecord_sound "a" 0).finish (le_refl 3) .completed 0
  obtain ⟨told, completed⟩ := told_after_publication (t := t) own ended after
  have left := congrArg Cluster.tasks after
  simp only
  rw [reacts]
  refine ⟨⟨_, stored, rfl⟩, poll_untold own (by rw [untold]; rfl), ?_, told,
    ⟨_, completed, rfl⟩⟩
  rw [left]
  simp [tasks, t, waiting]

end Cluster

end ControlPlane
