import Mathlib
import ControlPlane.Proofs.Cluster.Progress
import ControlPlane.Proofs.Cluster.Stale

/-!
# From a registration to its destruction

As long as a job is not destroyed it is launched at most once, and its record goes forward.  Once the record
has ended it stays as it is, but for one case: a task that belongs to an execution of the name before the
last destruction publishes in the slot of the new one.  Such a task may come before or after the own task
of the new execution, and then there are two outcomes, one after the other.

* `World.Intruded` — a task has intruded since the job was last destroyed.
* `Cluster.Undisturbed` — the slot of a finished execution has no task that could publish once more.
* `World.run_carries_registration` — the statement about runs.
* `World.finished_status_changes` — a record that ends twice.
-/

namespace ControlPlane

/-! ## Slots whose task is gone -/

namespace Cluster

variable {c d : Cluster} {job : String}

/-- **No task is left of a finished execution** that is still in its slot. -/
def Undisturbed (c : Cluster) (job : String) : Prop :=
  ∀ s, c.run? job = some s → s.outcome ≠ none → ∀ t ∈ c.tasks, t.job = job → t.execution ≠ s.execution

lemma Undisturbed.of_free (free : c.run? job = none) : c.Undisturbed job := by
  intro s found
  simp [free] at found

lemma Undisturbed.of_idle (idle : ∀ t ∈ c.tasks, t.job ≠ job) : c.Undisturbed job :=
  fun _ _ _ t member own => absurd own (idle t member)

lemma Undisturbed.spares (h : c.Undisturbed job) (spares : Spares job c d) : d.Undisturbed job := by
  intro s found ended t member own
  obtain ⟨u, before, mine, same⟩ := spares.tasks t member own
  rw [← same]
  exact h s (spares.run.symm.trans found) ended u before mine

namespace Attended

/-- A task that publishes in its own slot is gone afterwards. -/
lemma undisturbed_publish (h : c.Attended) (undisturbed : c.Undisturbed job) {execution : ℕ} {now : UInt64}
    (own : ∀ slot, (Tick.publish execution now).Posts c job execution slot → slot.execution = execution) :
    (c.react (.publish execution now)).Undisturbed job := by
  cases found : c.findTask execution with
  | none => simpa [Cluster.react, found] using undisturbed
  | some t =>
      rw [react_publish found]
      by_cases mine : t.job = job
      · subst mine
        cases phase : t.phase with
        | working work => simpa [Cluster.publishTask, phase] using undisturbed
        | resolved result =>
            cases there : c.slots.find? t.job with
            | none =>
                rw [publishTask_of_free phase there]
                exact .of_free (run?_eq_none.mpr there)
            | some slot =>
                have same := own slot (.publish found phase rfl there now)
                have number := number?_publishTask c t now.toNat t.job
                rw [number?_eq_some.mpr ⟨slot, there, rfl⟩, same] at number
                intro s found_now _ u member _ again
                obtain ⟨after, there_now, rfl⟩ := run?_eq_some.mp found_now
                obtain ⟨slot', found', number'⟩ := number?_eq_some.mp number
                obtain rfl := Option.some.inj (there_now.symm.trans found')
                rw [Cluster.publishTask_eq phase] at member
                have gone := (List.mem_filter.mp member).2
                simp [findTask_execution found, again, number'] at gone
      · exact undisturbed.spares (h.tidy.spares_publishTask mine now)

/-- **A tick in which nobody intrudes** leaves no task of a finished execution. -/
theorem undisturbed_react (h : c.Attended) (undisturbed : c.Undisturbed job) {t : Tick}
    (calm : ¬(Turn.tick t).Intrudes c job) : (c.react t).Undisturbed job := by
  cases t with
  | call q =>
      rw [react_call]
      by_cases own : q.job = job
      · subst own
        intro s found ended
        have nothing := h.untold_after_call (q.effect c) found ended
        rw [nothing] at found ⊢
        exact undisturbed s found ended
      · exact undisturbed.spares (h.spares_call own)
  | publish execution now =>
      refine h.undisturbed_publish undisturbed fun slot posts => ?_
      by_contra other
      exact calm ⟨execution, slot, posts, other⟩
  | resolve execution => exact undisturbed.spares (.resolved c execution)
  | write execution w => exact undisturbed.spares (.writeSink c execution w)
  | openGate key => exact undisturbed.spares (.openGate c key)
  | exchange executor => exact undisturbed
  | restart => exact .of_free rfl

/-- A tick that destroys a job leaves no slot of it, or there has never been a task. -/
lemma undisturbed_destroyed (h : c.Attended) {t : Tick} (destroys : t.Destroys job) :
    (c.react t).Undisturbed job := by
  by_cases valid : Job.isName job = true
  · have gone := h.number?_of_destroys destroys valid
    exact .of_free (run?_eq_none.mpr (number?_eq_none.mp gone))
  · refine .of_idle fun u member own => valid ?_
    exact own ▸ (h.react t).valid u member

end Attended

end Cluster

namespace World

variable {w : World} {job : String}

/-! ## Intrusions -/

/-- **A task has intruded** in the course of some turns, and the job has not been destroyed since. -/
def Intruded (w : World) (turns : List Turn) (job : String) : Prop :=
  ∃ early t late, turns = early ++ t :: late ∧ t.Intrudes (w.run early).cluster job
    ∧ ∀ u ∈ late, ¬u.Destroys job

lemma Intruded.of_last {turns : List Turn} {t : Turn} (intrudes : t.Intrudes (w.run turns).cluster job) :
    w.Intruded (turns ++ [t]) job :=
  ⟨turns, t, [], rfl, intrudes, by simp⟩

lemma Intruded.concat {turns : List Turn} (h : w.Intruded turns job) {t : Turn} (kept : ¬t.Destroys job) :
    w.Intruded (turns ++ [t]) job := by
  obtain ⟨early, u, late, split, intrudes, none_since⟩ := h
  refine ⟨early, u, late ++ [t], by simp [split], intrudes, fun v member => ?_⟩
  rcases List.mem_append.mp member with before | last
  · exact none_since v before
  · exact List.mem_singleton.mp last ▸ kept

namespace Orderly

/-- One turn. -/
lemma undisturbed_turn (h : w.Orderly) {t : Turn} (undisturbed : ¬t.Destroys job → w.cluster.Undisturbed job)
    (calm : ¬t.Intrudes w.cluster job) : (w.turn t).cluster.Undisturbed job := by
  cases t with
  | cut t n => exact .of_free rfl
  | tick t =>
      by_cases destroys : t.Destroys job
      · exact h.attended.undisturbed_destroyed destroys
      · exact h.attended.undisturbed_react (undisturbed destroys) calm

/-- **As long as nobody intrudes**, no task is left of a finished execution. -/
theorem undisturbed_run (h : w.Orderly) (undisturbed : w.cluster.Undisturbed job) {turns : List Turn}
    (calm : ¬w.Intruded turns job) : (w.run turns).cluster.Undisturbed job := by
  induction turns using List.reverseRecOn with
  | nil => exact undisturbed
  | append_singleton turns t ih =>
      rw [run_concat]
      refine (h.run turns).undisturbed_turn (fun kept => ih fun before => ?_) fun intrudes => ?_
      · exact calm (before.concat kept)
      · exact calm (.of_last intrudes)

/-- Nobody publishes any more in the slot of a job that has ended. -/
lemma not_posts (h : w.Orderly) (undisturbed : w.cluster.Undisturbed job) {t : Turn}
    (calm : ¬t.Intrudes w.cluster job) {r : Record} (stored : w.cluster.Stores job r)
    (finished : r.status.isFinished = true) (execution : ℕ) (slot : RunSlot) :
    ¬t.Posts w.cluster job execution slot := by
  intro posts
  have same : slot.execution = execution := by
    by_contra other
    exact calm ⟨execution, slot, posts, other⟩
  obtain ⟨tick, posts⟩ : ∃ tick : Tick, tick.Posts w.cluster job execution slot := by
    cases t with
    | tick tick => exact ⟨tick, posts⟩
    | cut tick n => exact ⟨tick, posts.1⟩
  cases posts with
  | @publish t result found phase own there now =>
      obtain ⟨r', stored', tells⟩ := h.attended.of_slot there
      obtain rfl := stored.unique stored'
      have ended : slot.outcome ≠ none := by
        intro unfinished
        rw [unfinished] at tells
        simp [show r.status = .running from tells, JobStatus.isFinished] at finished
      refine undisturbed slot.bare (Cluster.run?_eq_some.mpr ⟨slot, there, rfl⟩) ended t
        (List.mem_of_find?_eq_some found) own ?_
      exact (Cluster.findTask_execution found).trans same.symm

end Orderly

/-- **A finished record stays** until its job is destroyed, or a task intrudes. -/
theorem final_run {executor : Executor} {before during : List Turn}
    (kept : ∀ t ∈ during, ¬t.Destroys job)
    (calm : ¬(World.start executor).Intruded (before ++ during) job) {r : Record}
    (stored : ((World.start executor).run before).cluster.Stores job r)
    (finished : r.status.isFinished = true) :
    ((World.start executor).run (before ++ during)).cluster.Stores job r := by
  induction during using List.reverseRecOn with
  | nil => simpa using stored
  | append_singleton during t ih =>
      have last : ¬t.Destroys job := kept t (by simp)
      rw [← List.append_assoc] at calm ⊢
      have calm_before : ¬(World.start executor).Intruded (before ++ during) job := fun intruded =>
        calm (intruded.concat last)
      have calm_now : ¬t.Intrudes ((World.start executor).run (before ++ during)).cluster job :=
        fun intrudes => calm (.of_last intrudes)
      have still := ih (fun u member => kept u (List.mem_append_left _ member)) calm_before
      have orderly := (Orderly.start executor).run (before ++ during)
      have undisturbed := (Orderly.start executor).undisturbed_run (.of_free rfl) calm_before
      rw [run_concat]
      exact orderly.final still finished last (orderly.not_posts undisturbed calm_now still finished)

/-! ## The way of a registration -/

/-- **One execution for each registration.**  Take any run from an empty store, and any part of it
in which a job is not destroyed.  Within this part the executor is called for the job at most once;
a record of the job that is there before the part is followed by one that is there after it, and does not move
back; a record that has ended is not changed, unless a task has intruded since the job was last destroyed; and
after it there is either no record or a sound one. -/
theorem run_carries_registration (executor : Executor) (before during : List Turn) (job : String)
    (kept : ∀ t ∈ during, ¬t.Destroys job) :
    let w := (World.start executor).run before
    let v := w.run during
    (∃ taken, v.past = w.past ++ taken ∧ taken.countP (Step.launches job) ≤ 1) ∧
    (∀ r, w.cluster.Stores job r → ∃ s, v.cluster.Stores job s ∧ r.Precedes s ∧
      (r.status.isFinished = true → s = r ∨ (World.start executor).Intruded (before ++ during) job)) ∧
    (v.cluster.Lacks job ∨ ∃ s, v.cluster.Stores job s ∧ s.Sound job) := by
  intro w v
  have orderly : w.Orderly := (Orderly.start executor).run before
  have lawful : v.Lawful := (orderly.run during).lawful
  obtain ⟨taken, past, spared, forward⟩ := orderly.carries_run kept
  refine ⟨⟨taken, past, ?_⟩, fun r stored => ?_, lawful.sound job⟩
  · have launched := lawful.once job
    rw [show v.past = w.past ++ taken from past, launchesSince_append, foldl_count spared] at launched
    omega
  · obtain ⟨s, stored', precedes⟩ := forward r stored
    refine ⟨s, stored', precedes, fun finished => or_iff_not_imp_right.mpr fun calm => ?_⟩
    have still := final_run kept calm stored finished
    rw [run_append] at still
    exact stored'.unique still

/-- An opening launches the job once. -/
lemma launchesSince_opening (missing : w.cluster.Lacks job) (valid : Job.isName job = true)
    (none_yet : w.cluster.store.listResources job = .ok []) (now : UInt64) :
    launchesSince job (w.run (openingTurns job now)).past = launchesSince job w.past + 1 := by
  rw [run_opening missing valid none_yet now, perform, launchesSince_append, foldl_count_steps]
  simp [Cluster.openingSteps, Step.count, Step.purges, Step.launches, Cluster.plainContext]

/-- An execution that ends before a restart, and a start that is refused afterwards. -/
def endAndStart : List Turn :=
  [.tick (.resolve 0), .tick (.publish 0 0), .tick .restart, .tick (.call ⟨"a", .start, 1, trivial⟩)]

/-- The outcome is stored before the restart, and so the start finds the record of a started job. -/
lemma run_endAndStart {t : RunTask} {slot : RunSlot} {r : Record} (found : w.cluster.findTask 0 = some t)
    (phase : t.phase = .working (.finish (.ok ()))) (job : t.job = "a")
    (own : w.cluster.slots.find? "a" = some slot) (same : slot.execution = t.execution)
    (calm : slot.interrupted = false) (stored : w.cluster.Stores "a" r) (sound : r.Sound "a")
    (running : r.status = .running) :
    ((w.run (endAndStart.take 3)).cluster.issue (1 : UInt64).toNat "a" .start).1
        = .answered (.error (.executionAlreadyStarted "a"))
      ∧ (w.run endAndStart).cluster.Stores "a" (r.finish .completed (0 : UInt64).toNat) := by
  have started : 3 ≤ r.status.rank := by simp [running, JobStatus.rank]
  have ended := sound.finish started .completed 0
  have closed := Cluster.play_closing_stores found phase (job ▸ own) same calm (job ▸ stored) 0
    (job ▸ ended)
  rw [job] at closed
  have before : (w.run (endAndStart.take 3)).cluster
      = (w.cluster.play (Cluster.closingTicks 0 0)).restart :=
    (run_ticks w (Cluster.closingTicks 0 0 ++ [Tick.restart])).trans (Cluster.play_concat ..)
  have still : (w.run (endAndStart.take 3)).cluster.Stores "a" (r.finish .completed (0 : UInt64).toNat) := by
    rw [before]
    exact closed
  have refused := Cluster.start_again (by decide) still (sound.started_iff.mpr started) (1 : UInt64).toNat
  constructor
  · rw [Cluster.issue_answer _ _ _ (by simp), refused]
  · have nothing : Request.actions ⟨"a", .start, 1, trivial⟩ (w.run (endAndStart.take 3)).cluster = [] :=
      congrArg Prod.snd refused
    rw [show endAndStart = endAndStart.take 3 ++ [.tick (.call ⟨"a", .start, 1, trivial⟩)] from rfl,
      run_concat, turn_call, nothing, perform_nil]
    exact still

/-- A job that is registered, deployed, submitted and started; its execution ends, the cluster is restarted,
and a second start is refused. -/
theorem registration_through_a_restart :
    let w := (World.start (setting (.long 1))).run (openingTurns "a" 0)
    let v := w.run endAndStart
    (∀ t ∈ endAndStart, ¬t.Destroys "a") ∧ launchesSince "a" w.past = 1
      ∧ ((w.run (endAndStart.take 3)).cluster.issue (1 : UInt64).toNat "a" .start).1
        = .answered (.error (.executionAlreadyStarted "a"))
      ∧ (∃ taken, v.past = w.past ++ taken ∧ taken.countP (Step.launches "a") ≤ 1)
      ∧ ∃ r s, w.cluster.Stores "a" r ∧ r.status = .running ∧ v.cluster.Stores "a" s
        ∧ s.status = .completed ∧ r.Precedes s := by
  have kept : ∀ t ∈ endAndStart, ¬t.Destroys "a" := by
    simp [endAndStart, Turn.Destroys, Tick.Destroys]
  obtain ⟨taken, forward, -⟩ :=
    run_carries_registration (setting (.long 1)) (openingTurns "a" 0) endAndStart "a" kept
  obtain ⟨task, own, running⟩ := run_opening_setting (.long 1)
  obtain ⟨refused, completed⟩ := run_endAndStart task rfl rfl own rfl rfl running
    (Cluster.openRecord_sound "a" 0) rfl
  obtain ⟨s, stored, precedes, -⟩ := forward _ running
  obtain rfl := stored.unique completed
  have launched := launchesSince_opening (w := World.start (setting (.long 1))) rfl
    (by decide : Job.isName "a" = true) rfl 0
  exact ⟨kept, launched, refused, taken, _, _, running, rfl, completed, rfl, precedes⟩

/-! ## A record that ends twice -/

/-- An execution that fails. -/
def failing : Executor := fun _ => ⟨[], .finish (.error "out of memory")⟩

/-- **A finished status changes.**  A task of a destroyed execution publishes in the slot of the next one, and
the record says that the job has completed.  Then the execution of the slot itself ends, and the record says
that it has failed. -/
theorem finished_status_changes :
    ¬∀ (executor : Executor) (before during : List Turn) (job : String),
      (∀ t ∈ during, ¬t.Destroys job) → ∀ r s,
        ((World.start executor).run before).cluster.Stores job r → r.status.isFinished = true →
        (((World.start executor).run before).run during).cluster.Stores job s → s.status = r.status := by
  intro stays
  have life := Cluster.react_late_task failing
  rw [← Cluster.play_concat, show Cluster.ofStore .empty (setting (.long 1))
    = (World.start (setting (.long 1))).cluster from rfl, ← run_ticks] at life
  generalize (Cluster.secondLife failing ++ [Tick.publish 0 0]).map Turn.tick = before at life
  have stays_here := stays (setting (.long 1)) before ((Cluster.closingTicks 1 0).map .tick) "a"
    (by simp [Cluster.closingTicks, Turn.Destroys, Tick.Destroys])
  rw [run_ticks] at stays_here
  generalize ((World.start (setting (.long 1))).run before).cluster = c at life stays_here
  obtain ⟨tasks, own, stored⟩ := life
  have found : c.findTask 1 = some ⟨1, "a", false, .working (.finish (.error "out of memory"))⟩ := by
    rw [Cluster.findTask, tasks]
    rfl
  have sound := (Cluster.openRecord_sound "a" 0).finish (le_refl 3) .completed 0
  have ended := sound.finish (by decide) (.failed "out of memory") 0
  have failed := Cluster.play_closing_stores found rfl own rfl rfl stored 0 ended
  have same := stays_here _ _ stored rfl failed
  simp [Record.finish, Record.advance, Operation.statusOf, Operation.outcomeOf] at same

end World

end ControlPlane
