import Mathlib
import ControlPlane.Proofs.Cluster.Progress

/-!
# Rounds

A task that has resolved waits for the lock of the run slots before it publishes, and others may come first.
Where nobody does, it publishes as soon as it has resolved, and the cluster goes on by *rounds*: the two last
ticks of a task are one round, and every other tick is a round of its own.

* `Round`, `Round.turns`, `World.rounds` — rounds, and the turns that they stand for.
* `Cluster.Settled` — between two rounds every task is at work, and has a slot of its own that waits for it.
* `Cluster.Polls`, `Settled.polls` — a poll publishes nothing, or else it finishes the running record of its own
  execution.
* `Settled.react`, `Settled.settleTask` — rounds keep this.
* `World.Calm` — the invariant between two rounds, with what holds between any two turns.
-/

namespace ControlPlane

/-- **What happens next** when a task that resolves publishes right away. -/
inductive Round where
  /-- A client's call is carried out. -/
  | call (q : Request)
  /-- The process ends after `n` steps of a call. -/
  | cut (q : Request) (n : ℕ)
  /-- A task is carried on, and publishes if it resolves. -/
  | poll (execution : ℕ) (now : UInt64)
  /-- Somebody who has kept the sink of an execution writes to it. -/
  | write (execution : ℕ) (w : SinkWrite)
  /-- What the latest execution of a job has waited for has come. -/
  | openGate (job : String)
  /-- From now on the executor answers differently. -/
  | exchange (executor : Executor)
  /-- Another cluster over the same store. -/
  | restart

/-- The turns of a round. -/
def Round.turns : Round → List Turn
  | call q => [.tick (.call q)]
  | cut q n => [.cut (.call q) n]
  | poll execution now => [.tick (.resolve execution), .tick (.publish execution now)]
  | write execution w => [.tick (.write execution w)]
  | openGate job => [.tick (.openGate job)]
  | exchange executor => [.tick (.exchange executor)]
  | restart => [.tick .restart]

namespace World

/-- **One round.** -/
def round (w : World) (r : Round) : World := w.run r.turns

/-- **Rounds one after the other.** -/
def rounds (w : World) (rs : List Round) : World := rs.foldl round w

variable (w : World)

@[simp] lemma rounds_nil : w.rounds [] = w := rfl

@[simp] lemma rounds_cons (r : Round) (rs : List Round) : w.rounds (r :: rs) = (w.round r).rounds rs := rfl

lemma rounds_append (first second : List Round) :
    w.rounds (first ++ second) = (w.rounds first).rounds second :=
  List.foldl_append

/-- Rounds are runs. -/
lemma rounds_eq_run (rs : List Round) : w.rounds rs = w.run (rs.flatMap Round.turns) := by
  induction rs generalizing w with
  | nil => rfl
  | cons r rs ih => rw [rounds_cons, ih, List.flatMap_cons, run_append, round]

lemma round_call (q : Request) : w.round (.call q) = w.perform (q.actions w.cluster) := w.turn_call q

/-- A poll settles a task, and takes the steps of its publication. -/
lemma round_poll (execution : ℕ) (now : UInt64) : w.round (.poll execution now)
    = ⟨w.past ++ (w.cluster.resolved execution).steps
          ((w.cluster.resolved execution).publication execution now.toNat),
        w.cluster.settleTask now.toNat execution⟩ := by
  rw [Cluster.settleTask_eq]
  simp only [round, Round.turns, run_cons, run_nil, turn, Tick.actions, Cluster.steps, List.append_nil]
  rfl

end World

/-! ## Settled clusters -/

namespace Cluster

/-- **No task has resolved, and the slot of none has an outcome.** -/
structure Settled (c : Cluster) : Prop where
  attended : c.Attended
  working : ∀ t ∈ c.tasks, RunTask.isWorking t = true
  unfinished : ∀ t ∈ c.tasks, ∀ {s}, c.run? t.job = some s → s.outcome = none

namespace Settled

variable {c d : Cluster} {job : String}

/-- The slot that waits for a task. -/
lemma slot_of_task (h : c.Settled) {t : RunTask} (member : t ∈ c.tasks) :
    ∃ slot, c.slots.find? t.job = some slot ∧ slot.execution = t.execution ∧ slot.outcome = none := by
  have working := h.working t member
  obtain ⟨slot, found, same⟩ := number?_eq_some.mp (h.attended.own t member working)
  have running : c.run? t.job = some slot.bare := run?_eq_some.mpr ⟨slot, found, rfl⟩
  have none_yet : slot.bare.outcome = none := h.unfinished t member running
  exact ⟨slot, found, same, none_yet⟩

lemma start (executor : Executor) : (ofStore .empty executor).Settled where
  attended := .start executor
  working := by simp [ofStore]
  unfinished := by simp [ofStore]

/-- A tick that is none of the last two of a task. -/
def Keeps : Tick → Prop
  | .resolve _ | .publish _ _ => False
  | _ => True

/-- **All other ticks** leave every task at work, and its slot without an outcome. -/
theorem react (h : c.Settled) (tick : Tick) (keeps : Keeps tick) : (c.react tick).Settled where
  attended := h.attended.react tick
  working := by
    intro t member
    cases h.attended.descends member with
    | @stays u before job same phase => simpa [RunTask.isWorking, phase] using h.working u before
    | works carried => exact (carried ▸ keeps).elim
    | starts called own new working => exact working
  unfinished := by
    intro t member s found
    -- A task that was there before, with a slot that nobody has touched.
    have spared : ∀ {u : RunTask}, u ∈ c.tasks → u.job = t.job → Spares t.job c (c.react tick) →
        s.outcome = none := by
      intro u before job spares
      rw [spares.run, ← job] at found
      exact h.unfinished u before found
    cases h.attended.descends member with
    | works carried => exact (carried ▸ keeps).elim
    | @starts q called own new working valid number =>
        subst called
        by_contra ended
        rw [react_call] at found
        have nothing := h.attended.untold_after_call (q.effect c) (own ▸ found) ended
        rw [react_call, nothing] at member
        have old := h.attended.tidy.numbered.tasks t member
        omega
    | @stays u before job same phase =>
        cases tick with
        | call q =>
            by_cases own : q.job = t.job
            · by_contra ended
              rw [react_call] at found
              have nothing := h.attended.untold_after_call (q.effect c) (own ▸ found) ended
              rw [nothing, after_nil, ← job] at found
              exact ended (h.unfinished u before found)
            · exact spared before job (by rw [react_call]; exact h.attended.spares_call own)
        | resolve | publish => exact keeps.elim
        | write execution w => exact spared before job (.writeSink c execution w)
        | openGate key => exact spared before job (.openGate c key)
        | exchange executor =>
            rw [← job] at found
            exact h.unfinished u before found
        | restart => simp [Cluster.react, restart] at member

end Settled

/-! ## Polls -/

/-- The cluster in which a task has written its counters and has published. -/
def publishedBy (c : Cluster) (t : RunTask) (r : Record) (outcome : Job.Outcome) (a : Accumulators)
    (now : ℕ) : Cluster :=
  (c.putCounters t a).after (outcomeSteps t.job r outcome a now)

section PublishedBy

variable {c : Cluster} {t : RunTask} {slot : RunSlot} {r : Record} (outcome : Job.Outcome)
  (a : Accumulators) (now : ℕ)

/-- The slot of a job after the poll of its task. -/
lemma putCounters_own (own : c.slots.find? t.job = some slot)
    (same : slot.execution = t.execution) :
    (c.putCounters t a).slots.find? t.job = some { slot with accumulators := a } := by
  simp [putCounters_eq_modifySlot, own, same]

lemma publishedBy_find? (r : Record) (own : c.slots.find? t.job = some slot)
    (same : slot.execution = t.execution) (key : String) :
    (c.publishedBy t r outcome a now).slots.find? key
      = if t.job = key then some { slot with accumulators := a, outcome := some outcome }
        else c.slots.find? key := by
  simp only [publishedBy, outcomeSteps, after_cons, after_nil, Action.perform_find?]
  split_ifs with here
  · subst here
    rw [putCounters_own a own same]
    rfl
  · simp [putCounters_eq_modifySlot, here]

lemma publishedBy_getJob (sound : (r.finish outcome now).Sound t.job) (key : String) :
    (c.publishedBy t r outcome a now).store.getJob key
      = if t.job = key then .ok (some (r.finish outcome now)) else c.store.getJob key := by
  rw [publishedBy, outcomeSteps, after_cons, after_cons, after_cons, after_nil,
    Action.perform_getJob _ _ (by simp), Action.perform_getJob _ _ (by simp)]
  have written := (c.putCounters t a).store.getJob_putJob sound.fits key
  refine Eq.trans written ?_
  rw [sound.name, putCounters_store]

lemma publishedBy_nextExecution (r : Record) :
    (c.publishedBy t r outcome a now).nextExecution = c.nextExecution := by
  simp only [publishedBy, outcomeSteps, after_cons, after_nil, Action.perform_nextExecution,
    putCounters_nextExecution]

lemma publishedBy_published (r : Record) (own : c.slots.find? t.job = some slot)
    (same : slot.execution = t.execution) :
    (c.publishedBy t r outcome a now).published = (slot.execution, outcome) :: c.published := by
  simp only [publishedBy, outcomeSteps, after_cons, after_nil, Action.perform_published,
    Action.perform_find?, putCounters_own a own same, putCounters_published]

end PublishedBy

/-- **What the poll of an execution does**: its steps, and the cluster afterwards. -/
inductive Polls (c : Cluster) (execution now : ℕ) : List Action → Cluster → Prop where
  | idle (missing : c.findTask execution = none) : c.Polls execution now [] c
  | stands {t : RunTask} {work rest : Work} (found : c.findTask execution = some t)
      (phase : t.phase = .working work) (same : rest.ending = work.ending) (a : Accumulators) :
      c.Polls execution now []
        ((c.putCounters t a).replaceTask { t with phase := .working rest })
  | publishes {t : RunTask} {work : Work} {slot : RunSlot} {r : Record}
      (found : c.findTask execution = some t) (phase : t.phase = .working work)
      (own : c.slots.find? t.job = some slot) (same : slot.execution = execution)
      (unfinished : slot.outcome = none) (stored : c.Stores t.job r) (running : r.status = .running)
      (outcome : Job.Outcome)
      (eq : outcome = Operation.outcomeOf slot.interrupted (some work.ending))
      (a : Accumulators) :
      c.Polls execution now (outcomeSteps t.job r outcome a now)
        { c.publishedBy t r outcome a now with
          tasks := c.tasks.filter fun u => u.execution ≠ execution }

/-- A task that is replaced first and removed later makes no difference to the steps between. -/
lemma after_outcomeSteps_replaceTask (c : Cluster) (u : RunTask) (job : String) (r : Record)
    (outcome : Job.Outcome) (a : Accumulators) (now : ℕ) :
    (c.replaceTask u).after (outcomeSteps job r outcome a now)
      = { c.after (outcomeSteps job r outcome a now) with tasks := (c.replaceTask u).tasks } := by
  simp only [outcomeSteps, after_cons, after_nil, Action.perform, setOutcome, replaceTask]
  cases c.slots.find? job <;> rfl

lemma filter_replaceTask (c : Cluster) (u : RunTask) :
    ((c.replaceTask u).tasks.filter fun v => v.execution ≠ u.execution)
      = c.tasks.filter fun v => v.execution ≠ u.execution := by
  unfold replaceTask
  induction c.tasks with
  | nil => rfl
  | cons v rest ih =>
      by_cases same : v.execution = u.execution
      · simp_all
      · simp_all

namespace Settled

variable {c : Cluster}

/-- A poll of a task, and the cluster with its counters written. -/
lemma resolved_eq (h : c.Settled) {execution : ℕ} {t : RunTask} (found : c.findTask execution = some t) :
    ∃ work a phase, t.phase = .working work ∧ c.Leads t work phase
      ∧ c.resolved execution = (c.putCounters t a).replaceTask { t with phase := phase } := by
  have working := h.working t (List.mem_of_find?_eq_some found)
  cases phase : t.phase with
  | resolved result => simp [RunTask.isWorking, phase] at working
  | working work =>
      obtain ⟨a, next, eq, leads⟩ := c.resolveTask_eq phase
      exact ⟨work, a, next, rfl, leads, by simp only [resolved, found, eq]⟩

/-- **A poll publishes for its own execution only**, in its own slot and in a record that runs. -/
theorem polls (h : c.Settled) (execution : ℕ) (now : UInt64) :
    c.Polls execution now.toNat ((c.resolved execution).publication execution now.toNat)
      (c.settleTask now.toNat execution) := by
  rw [settleTask_eq, react_publish_eq, show c.react (.resolve execution) = c.resolved execution from rfl]
  generalize now.toNat = now
  cases found : c.findTask execution with
  | none =>
      have still : c.resolved execution = c := by simp [resolved, found]
      have silent : c.publication execution now = [] := by simp [Cluster.publication, found]
      have kept : c.retire execution = c := by simp [retire, found]
      rw [still, silent, after_nil, kept]
      exact .idle found
  | some t =>
      obtain rfl := findTask_execution found
      obtain ⟨work, a, phase, working, leads, eq⟩ := h.resolved_eq found
      obtain ⟨slot, own, same, unfinished⟩ := h.slot_of_task (List.mem_of_find?_eq_some found)
      obtain ⟨r, stored, tells⟩ := h.attended.of_slot own
      rw [unfinished] at tells
      have foundIn : (c.resolved t.execution).findTask t.execution = some { t with phase := phase } := by
        rw [eq]
        refine findTask_replaceTask _ (t := t) ?_ rfl
        rw [findTask, putCounters_tasks]
        exact found
      have publishes : ∀ result, phase = .resolved result →
          Operation.outcomeOf slot.interrupted result
            = Operation.outcomeOf slot.interrupted (some work.ending) →
          c.Polls t.execution now ((c.resolved t.execution).publication t.execution now)
            (((c.resolved t.execution).after ((c.resolved t.execution).publication t.execution now)).retire
              t.execution) := by
        rintro result rfl outcome
        have steps : (c.resolved t.execution).publication t.execution now
            = outcomeSteps t.job r (Operation.outcomeOf slot.interrupted result) a now := by
          rw [Cluster.publication, foundIn]
          have recorded : (c.resolved t.execution).Stores t.job r := by
            rw [Stores, eq]
            exact (congrArg (fun s : Store => s.getJob t.job) (putCounters_store ..)).trans stored
          have here : (c.resolved t.execution).slots.find? t.job
              = some { slot with accumulators := a } := by
            rw [eq, replaceTask_slots, putCounters_own a own same]
          exact plan_publish_own here recorded result now
        have tasks := (c.resolved t.execution).tasks_after_publication t.execution now
        rw [retire, findTask, tasks, ← findTask, foundIn]
        simp only
        rw [steps, eq, after_outcomeSteps_replaceTask]
        simp only
        rw [filter_replaceTask (c.putCounters t a) { t with phase := .resolved result },
          putCounters_tasks]
        exact .publishes found working own same unfinished stored tells _ outcome a
      cases leads with
      | interrupted interrupted =>
          rw [isInterrupted, own] at interrupted
          obtain ⟨-, flag⟩ : slot.execution = t.execution ∧ slot.interrupted = true := by
            simpa using interrupted
          exact publishes _ rfl (by simp [Operation.outcomeOf, flag])
      | finished => exact publishes _ rfl rfl
      | stands rest =>
          have silent : (c.resolved t.execution).publication t.execution now = [] := by
            rw [Cluster.publication, foundIn]
          rw [silent, after_nil, retire, foundIn, eq]
          exact .stands found working rest a

/-- **A poll** leaves every task at work, and its slot without an outcome. -/
theorem settleTask (h : c.Settled) (execution : ℕ) (now : UInt64) :
    (c.settleTask now.toNat execution).Settled := by
  have polls := h.polls execution now
  have attended : (c.settleTask now.toNat execution).Attended := by
    rw [settleTask_eq]
    exact (h.attended.react _).react _
  generalize (c.resolved execution).publication execution now.toNat = steps at polls
  generalize c.settleTask now.toNat execution = d at polls attended ⊢
  refine ⟨attended, fun u member => ?_, fun u member s seen => ?_⟩
  · cases polls with
    | idle missing => exact h.working u member
    | stands found phase same a =>
        obtain ⟨v, before, rfl⟩ := List.mem_map.mp member
        rw [putCounters_tasks] at before
        split_ifs
        · rfl
        · exact h.working v before
    | publishes => exact h.working u (List.mem_filter.mp member).1
  · obtain ⟨slot, there, rfl⟩ := run?_eq_some.mp seen
    cases polls with
    | idle missing => exact h.unfinished u member seen
    | @stands t work rest found phase same a =>
        have earlier : ∃ v ∈ c.tasks, v.job = u.job := by
          obtain ⟨v, before, rfl⟩ := List.mem_map.mp member
          rw [putCounters_tasks] at before
          split_ifs
          · exact ⟨t, List.mem_of_find?_eq_some found, rfl⟩
          · exact ⟨v, before, rfl⟩
        obtain ⟨v, before, job⟩ := earlier
        have spares : c.run? v.job = some slot.bare := by
          rw [← run?_putCounters, job]
          exact run?_eq_some.mpr ⟨slot, there, rfl⟩
        exact h.unfinished v before spares
    | @publishes t work held r found phase own same unfinished stored running outcome eq a =>
        obtain rfl := findTask_execution found
        obtain ⟨before, other⟩ := List.mem_filter.mp member
        obtain ⟨mine, here, number, -⟩ := h.slot_of_task before
        have elsewhere : t.job ≠ u.job := by
          intro job
          obtain rfl := Option.some.inj (own.symm.trans (job ▸ here))
          simp [← number, same] at other
        rw [publishedBy_find? outcome a now.toNat r own same, if_neg elsewhere] at there
        exact h.unfinished u before (run?_eq_some.mpr ⟨slot, there, rfl⟩)

end Settled

end Cluster

/-! ## The invariant between two rounds -/

namespace World

/-- **What holds between two rounds.** -/
structure Calm (w : World) : Prop where
  lawful : w.Lawful
  settled : w.cluster.Settled

variable {w : World}

lemma Calm.orderly (h : w.Calm) : w.Orderly := ⟨h.lawful, h.settled.attended⟩

lemma Calm.start (executor : Executor) : (World.start executor).Calm :=
  ⟨(Orderly.start executor).lawful, .start executor⟩

theorem Calm.round (h : w.Calm) (r : Round) : (w.round r).Calm := by
  refine ⟨(h.orderly.run r.turns).lawful, ?_⟩
  cases r with
  | call q => exact h.settled.react (.call q) trivial
  | cut q n =>
      have attended := (h.orderly.turn (.cut (.call q) n)).attended
      exact ⟨attended, fun t member => (List.not_mem_nil member).elim,
        fun t member => (List.not_mem_nil member).elim⟩
  | poll execution now =>
      rw [round_poll]
      exact h.settled.settleTask execution now
  | write execution w => exact h.settled.react (.write execution w) trivial
  | openGate job => exact h.settled.react (.openGate job) trivial
  | exchange executor => exact h.settled.react (.exchange executor) trivial
  | restart => exact h.settled.react .restart trivial

theorem Calm.rounds (h : w.Calm) (rs : List Round) : (w.rounds rs).Calm := by
  induction rs generalizing w with
  | nil => exact h
  | cons r rs ih => exact ih (h.round r)

end World

end ControlPlane
