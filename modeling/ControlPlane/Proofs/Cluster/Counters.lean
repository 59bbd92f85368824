import Mathlib
import ControlPlane.Proofs.Cluster.Opening
import ControlPlane.Proofs.Cluster.Progress
import ControlPlane.Proofs.Registry.Counters

/-!
# The counters of an execution that has ended

As long as the slot of an execution is there, its counters are told from it; afterwards they are read
from the store.  A publication stores the counters that are in the slot then, before it shows the outcome.
Afterwards a call does not change them any more; but somebody may have kept the sink and write to it, and when
the task of another execution has published in the slot, its own task still goes on.

* `Executor.InRange` — an executor writes whole numbers of sixty-four bits, and any doubles.
* `Cluster.InRange` — then so are the counters in the slots, whatever steps are taken.
* `Cluster.Attended.ended_slot_react` — what a tick leaves of a slot with an outcome.
* `World.Closed` — the publication whose counters are stored, and what holds of the slot since.
* `World.counters_after_restart` — the statement about runs.
-/

namespace ControlPlane

/-! ## Writes -/

/-- A write of a counter that can be held. -/
def SinkWrite.InRange : SinkWrite → Prop
  | add _ value | set _ value => value.InRange

namespace Accumulators

variable {s : Accumulators}

lemma InRange.apply (range : s.InRange) {w : SinkWrite} (write : w.InRange) :
    InRange (w.apply s) := by
  cases w with
  | add name value =>
      rw [SinkWrite.apply]
      cases s.find? name with
      | none => exact range.insert name write
      | some current => exact range.insert name (.merge current value)
  | set name value => exact range.insert name write

lemma InRange.write (range : s.InRange) {writes : List SinkWrite} (all : ∀ w ∈ writes, w.InRange) :
    InRange (s.write writes) := by
  unfold Accumulators.write
  induction writes generalizing s with
  | nil => exact range
  | cons w rest ih =>
      exact ih (range.apply (all w List.mem_cons_self)) fun v member =>
        all v (List.mem_cons_of_mem w member)

end Accumulators

namespace Work

/-- All writes of the work are of counters that can be held. -/
def InRange : Work → Prop
  | finish _ => True
  | write w rest => w.InRange ∧ rest.InRange
  | wait rest => rest.InRange

lemma InRange.advance {work : Work} (writes : work.InRange) {s : Accumulators} (range : s.InRange)
    (gateOpen : Bool) :
    (work.advance gateOpen s).1.InRange ∧ (work.advance gateOpen s).2.InRange := by
  induction work generalizing s with
  | finish result => exact ⟨trivial, range⟩
  | write w rest ih => exact ih writes.2 (range.apply writes.1)
  | wait rest ih =>
      rw [Work.advance]
      split_ifs
      · exact ih writes range
      · exact ⟨writes, range⟩

end Work

/-- **An executor that writes what counters can hold.** -/
def Executor.InRange (e : Executor) : Prop :=
  ∀ context, (∀ w ∈ (e context).atOnce, w.InRange) ∧ (e context).work.InRange

/-- The executors that a turn brings, and what is written from outside. -/
def Turn.InRange : Turn → Prop
  | .tick (.exchange executor) => executor.InRange
  | .tick (.write _ w) => w.InRange
  | _ => True

/-! ## Counters that can be held -/

namespace Cluster

variable {c d : Cluster} {job : String}

/-- **Every counter can be held**, and so can all that will be written. -/
structure InRange (c : Cluster) : Prop where
  slots : ∀ {job slot}, c.slots.find? job = some slot → slot.accumulators.InRange
  tasks : ∀ t ∈ c.tasks, ∀ work, t.phase = .working work → work.InRange
  executor : c.executor.InRange

namespace InRange

/-- Fewer tasks, or tasks that are as far as they were. -/
lemma of_tasks (h : c.InRange) {tasks : List RunTask}
    (old : ∀ t ∈ tasks, ∃ u ∈ c.tasks, t.phase = u.phase) :
    Cluster.InRange { c with tasks := tasks } where
  slots := h.slots
  tasks := by
    intro t member work phase
    obtain ⟨u, before, same⟩ := old t member
    exact h.tasks u before work (same ▸ phase)
  executor := h.executor

lemma countersOf (h : c.InRange) (t : RunTask) : (c.countersOf t).InRange := by
  unfold Cluster.countersOf
  cases found : c.slots.find? t.job with
  | none => exact .empty
  | some slot =>
      simp only
      split_ifs
      · exact h.slots found
      · exact .empty

lemma putCounters (h : c.InRange) (t : RunTask) {s : Accumulators} (range : s.InRange) :
    (c.putCounters t s).InRange := by
  unfold Cluster.putCounters
  split
  · split_ifs
    · refine ⟨fun {key slot} found => ?_, h.tasks, h.executor⟩
      rw [Table.find?_insert] at found
      split_ifs at found
      · obtain rfl := Option.some.inj found
        exact range
      · exact h.slots found
    · exact h
  · exact h

lemma replaceTask (h : c.InRange) {t : RunTask}
    (work : ∀ work, t.phase = .working work → work.InRange) : (c.replaceTask t).InRange where
  slots := h.slots
  tasks := by
    intro u member
    obtain ⟨v, before, rfl⟩ := List.mem_map.mp member
    split_ifs
    · exact work
    · exact h.tasks v before
  executor := h.executor

/-- A task at work goes on. -/
lemma resolveTask (h : c.InRange) {t : RunTask} (member : t ∈ c.tasks) :
    (c.resolveTask t).InRange := by
  unfold Cluster.resolveTask
  cases phase : t.phase with
  | resolved result => exact h
  | working work =>
      obtain ⟨rest, range⟩ :=
        (h.tasks t member work phase).advance (h.countersOf t) t.gateOpen
      have written := h.putCounters t range
      simp only
      split_ifs
      · exact h.replaceTask (by simp)
      · cases (work.advance t.gateOpen (c.countersOf t)).1.result? with
        | some result => exact written.replaceTask (by simp)
        | none => exact written.replaceTask (by simpa using rest)

lemma resolved (h : c.InRange) (execution : ℕ) : (c.resolved execution).InRange := by
  unfold Cluster.resolved
  cases found : c.findTask execution with
  | none => exact h
  | some t => exact h.resolveTask (List.mem_of_find?_eq_some found)

lemma retire (h : c.InRange) (execution : ℕ) : (c.retire execution).InRange := by
  unfold Cluster.retire
  split <;> try split
  · exact h.of_tasks fun t member => ⟨t, (List.mem_filter.mp member).1, rfl⟩
  · exact h
  · exact h

lemma openGate (h : c.InRange) (job : String) : (c.openGate job).2.InRange := by
  unfold Cluster.openGate
  split
  · refine h.of_tasks fun t member => ?_
    obtain ⟨u, before, rfl⟩ := List.mem_map.mp member
    refine ⟨u, before, ?_⟩
    split_ifs <;> rfl
  · exact h

lemma restart (h : c.InRange) : c.restart.InRange where
  slots := by simp [Cluster.restart]
  tasks := by simp [Cluster.restart]
  executor := h.executor

/-- **Every step** leaves counters that can be held. -/
theorem perform (h : c.InRange) (a : Action) : (a.perform c).2.InRange where
  slots := by
    intro key slot found
    rw [Action.perform_find?] at found
    cases a
    case launch context =>
      simp only at found
      split_ifs at found
      · obtain rfl := Option.some.inj found
        exact Accumulators.InRange.empty.write (h.executor context).1
      · exact h.slots found
    case removeSlot other =>
      simp only at found
      split_ifs at found
      exact h.slots found
    case requestInterrupt other | setOutcome other outcome =>
      simp only at found
      split_ifs at found
      · obtain ⟨old, before, rfl⟩ := Option.map_eq_some_iff.mp found
        exact (h.slots before : old.accumulators.InRange)
      · exact h.slots found
    all_goals exact h.slots found
  tasks := by
    rw [Action.perform_tasks]
    cases a
    case launch context =>
      intro t member work phase
      rcases List.mem_append.mp member with before | new
      · exact h.tasks t before work phase
      · obtain rfl := List.mem_singleton.mp new
        obtain rfl : (c.executor context).work = work := by simpa using phase
        exact (h.executor context).2
    case removeSlot key =>
      intro t member
      refine h.tasks t ?_
      simp only [Cluster.removeSlot] at member
      split at member
      · exact (List.mem_filter.mp member).1
      · exact member
    all_goals exact h.tasks
  executor := by
    rw [Action.perform_executor]
    exact h.executor

lemma after (h : c.InRange) (actions : List Action) : (c.after actions).InRange := by
  induction actions generalizing c with
  | nil => exact h
  | cons a rest ih => exact ih (h.perform a)

lemma writeSink (h : c.InRange) (execution : ℕ) {w : SinkWrite} (range : w.InRange) :
    (c.writeSink execution w).InRange where
  slots := by
    intro key slot found
    rw [writeSink_find?] at found
    obtain ⟨old, before, rfl⟩ := Option.map_eq_some_iff.mp found
    split_ifs
    · exact (h.slots before).apply range
    · exact h.slots before
  tasks := h.tasks
  executor := h.executor

lemma turn {w : World} (h : w.cluster.InRange) {t : Turn} (new : t.InRange) :
    (w.turn t).cluster.InRange := by
  cases t with
  | cut t n => exact (h.after _).restart
  | tick t =>
      cases t with
      | call q =>
          rw [World.turn_call]
          exact h.after _
      | publish execution now =>
          show (w.cluster.react (.publish execution now)).InRange
          rw [react_publish_eq]
          exact (h.after _).retire execution
      | resolve execution => exact h.resolved execution
      | write execution w => exact h.writeSink execution new
      | openGate job => exact h.openGate job
      | restart => exact h.restart
      | exchange executor => exact ⟨h.slots, h.tasks, new⟩

end InRange

end Cluster

/-! ## Counters that are stored -/

/-- A step that writes about another job, or that only looks, leaves the slot and the counters of a job. -/
lemma Action.perform_elsewhere {a : Action} {job : String} (other : a.subject? ≠ some job) (c : Cluster) :
    (a.perform c).2.slots.find? job = c.slots.find? job
      ∧ (a.perform c).2.store.accumulators.find? job = c.store.accumulators.find? job := by
  rw [perform_find?, perform_accumulators]
  cases a <;> simp_all [Action.subject?]
  exact fun same => absurd same.symm other

namespace Cluster

variable {c d : Cluster} {job : String}

lemma after_elsewhere {actions : List Action} (other : ∀ a ∈ actions, a.subject? ≠ some job) (c : Cluster) :
    (c.after actions).slots.find? job = c.slots.find? job
      ∧ (c.after actions).store.accumulators.find? job = c.store.accumulators.find? job := by
  induction actions generalizing c with
  | nil => exact ⟨rfl, rfl⟩
  | cons a rest ih =>
      obtain ⟨slot, row⟩ := Action.perform_elsewhere (other a List.mem_cons_self) c
      obtain ⟨slot', row'⟩ := ih (fun b member => other b (List.mem_cons_of_mem a member)) _
      exact ⟨slot'.trans slot, row'.trans row⟩

/-- **What is left of a slot** with an outcome: its execution, its outcome and the row of its counters. -/
structure Remains (c d : Cluster) (job : String) (old new : RunSlot) : Prop where
  before : c.slots.find? job = some old
  execution : old.execution = new.execution
  outcome : old.outcome = new.outcome
  row : d.store.accumulators.find? job = c.store.accumulators.find? job

namespace Attended

/-- A tick that does not touch the slot. -/
lemma remains_of_same {tick : Tick} {slot : RunSlot} (found : (c.react tick).slots.find? job = some slot)
    (same : (c.react tick).slots.find? job = c.slots.find? job
      ∧ (c.react tick).store.accumulators.find? job = c.store.accumulators.find? job) :
    ∃ old, c.Remains (c.react tick) job old slot ∧ ((∀ w, tick ≠ .write slot.execution w) →
      (tick = .resolve slot.execution → c.findTask slot.execution = none) →
      old.accumulators = slot.accumulators) :=
  ⟨slot, ⟨same.1.symm.trans found, rfl, rfl, same.2⟩, fun _ _ => rfl⟩

/-- A task that is carried on may write to its own slot, and to no other. -/
lemma ended_slot_resolved {execution : ℕ} {slot : RunSlot}
    (found : (c.react (.resolve execution)).slots.find? job = some slot) :
    ∃ old, c.Remains (c.react (.resolve execution)) job old slot ∧
      ((∀ w, Tick.resolve execution ≠ .write slot.execution w) →
        (Tick.resolve execution = .resolve slot.execution → c.findTask slot.execution = none) →
        old.accumulators = slot.accumulators) := by
  have row : (c.react (.resolve execution)).store.accumulators.find? job
      = c.store.accumulators.find? job := by
    rw [show (c.react (.resolve execution)).store = c.store from c.resolved_store execution]
  cases there : c.findTask execution with
  | none => exact remains_of_same found ⟨by simp [Cluster.react, Cluster.resolved, there], row⟩
  | some t =>
      cases phase : t.phase with
      | resolved result =>
          exact remains_of_same found ⟨by simp [Cluster.react, Cluster.resolved, there, resolveTask, phase], row⟩
      | working work =>
          obtain ⟨a, next, eq, -⟩ := c.resolveTask_eq phase
          have after : c.react (.resolve execution) = (c.putCounters t a).replaceTask { t with phase := next } := by
            simp only [Cluster.react, Cluster.resolved, there, eq]
          have slots : (c.react (.resolve execution)).slots.find? job
              = if t.job = job then (c.slots.find? job).map fun slot =>
                  if slot.execution = t.execution then { slot with accumulators := a } else slot
                else c.slots.find? job := by
            rw [after, replaceTask_slots, putCounters_eq_modifySlot, modifySlot_find?]
          by_cases own : t.job = job
          · rw [if_pos own] at slots
            obtain ⟨old, before, eq⟩ := Option.map_eq_some_iff.mp (slots.symm.trans found)
            split_ifs at eq with here
            · subst eq
              refine ⟨old, ⟨before, rfl, rfl, row⟩, fun _ gone => ?_⟩
              have number : execution = old.execution := (findTask_execution there).symm.trans here.symm
              have absent := gone (congrArg Tick.resolve number)
              simp [← number, there] at absent
            · subst eq
              exact ⟨old, ⟨before, rfl, rfl, row⟩, fun _ _ => rfl⟩
          · rw [if_neg own] at slots
            exact remains_of_same found ⟨slots, row⟩

/-- **What a tick leaves of a slot with an outcome**, unless a task publishes in it.  Only a write to the sink
and the task of the execution, if it is still there, change the counters. -/
theorem ended_slot_react (h : c.Attended) {tick : Tick}
    (silent : ∀ execution slot, ¬tick.Posts c job execution slot) {slot : RunSlot}
    (found : (c.react tick).slots.find? job = some slot) (ended : slot.outcome ≠ none) :
    ∃ old, c.Remains (c.react tick) job old slot ∧ ((∀ w, tick ≠ .write slot.execution w) →
      (tick = .resolve slot.execution → c.findTask slot.execution = none) →
      old.accumulators = slot.accumulators) := by
  cases tick with
  | call q =>
      refine remains_of_same found ?_
      rw [react_call] at found ⊢
      by_cases own : q.job = job
      · subst own
        have running := run?_eq_some.mpr ⟨slot, found, rfl⟩
        rw [h.untold_after_call (q.effect c) running ended]
        exact ⟨rfl, rfl⟩
      · refine after_elsewhere (fun a member => ?_) c
        simpa [(h.tidy.effect (q.effect c) a member).1] using own
  | publish execution now =>
      refine remains_of_same found ?_
      have reports := h.reports execution now.toNat
      rw [react_publish_eq, retire_eq]
      generalize c.publication execution now.toNat = actions at reports ⊢
      cases reports with
      | nothing => exact ⟨rfl, rfl⟩
      | @outcome t result own r there phase here stored tells =>
          have other : t.job ≠ job := by
            rintro rfl
            exact silent execution own (.publish there phase rfl here now)
          refine after_elsewhere (fun a member => ?_) c
          have label := (h.tidy.labelled stored).1
          simp only [outcomeSteps, List.mem_cons, List.not_mem_nil, or_false] at member
          rcases member with rfl | rfl | rfl <;>
            simpa [Action.subject?, Record.finish, Record.advance, label] using other
  | resolve execution => exact ended_slot_resolved found
  | write execution w =>
      rw [show c.react (.write execution w) = c.writeSink execution w from rfl, writeSink_find?] at found
      obtain ⟨old, before, rfl⟩ := Option.map_eq_some_iff.mp found
      refine ⟨old, ⟨before, ?_, ?_, rfl⟩, fun other _ => ?_⟩
      · split_ifs <;> rfl
      · split_ifs <;> rfl
      · split_ifs with here
        · subst here
          simp at other
        · rfl
  | openGate key => exact remains_of_same found ⟨by simp [Cluster.react], by simp [Cluster.react]⟩
  | exchange executor => exact remains_of_same found ⟨rfl, rfl⟩
  | restart => simp [Cluster.react, Cluster.restart] at found

end Attended

end Cluster

namespace World

variable {w : World} {job : String}

/-- **Runs keep counters in range.** -/
lemma inRange_run (h : w.cluster.InRange) {turns : List Turn} (new : ∀ t ∈ turns, t.InRange) :
    (w.run turns).cluster.InRange := by
  induction turns generalizing w with
  | nil => exact h
  | cons t turns ih =>
      exact ih (h.turn (new t List.mem_cons_self)) fun u member => new u (List.mem_cons_of_mem t member)

end World

/-! ## What is told of the counters -/

namespace Cluster

variable {c : Cluster} {job : String}

/-- What the call for the counters of a job is answered. -/
def toldCounters (c : Cluster) (job : String) (now : ℕ) : Issued := (c.issue now job .accumulators).1

lemma toldCounters_eq (c : Cluster) (job : String) (now : ℕ) :
    c.toldCounters job now = .answered (Except.map Reply.counters (match c.slots.find? job with
      | some slot => .ok slot.accumulators
      | none => match c.store.getAccumulators job with
        | .error e => .error (.state e)
        | .ok (some a) => .ok a
        | .ok none => (c.findRecord job).map fun _ => .empty)) := by
  rw [toldCounters, issue_answer c now job (by simp), Call.operation, Operation.plan_map]
  exact congrArg (fun p => Issued.answered (p.1.map Reply.counters))
    (Operation.plan_accumulators c job)

/-- As long as there is a slot, the counters in it are told. -/
lemma toldCounters_of_slot {slot : RunSlot} (found : c.slots.find? job = some slot) (now : ℕ) :
    c.toldCounters job now = .answered (.ok (.counters slot.accumulators)) := by
  rw [toldCounters_eq, found]
  rfl

/-- Without a slot, the row is read back. -/
lemma toldCounters_of_row (free : c.slots.find? job = none) {s : Accumulators} (range : s.InRange)
    (row : c.store.accumulators.find? job = some (.of s.toJson)) (now : ℕ) :
    c.toldCounters job now = .answered (match s.reread with
      | .ok read => .ok (.counters read)
      | .error fault => .error (.state (.codec fault))) := by
  have stored : c.store.getAccumulators job = (s.reread.mapError .codec).map some := by
    simp only [Store.getAccumulators, Store.get, row, Accumulators.decode_row range]
  rw [toldCounters_eq, free, stored]
  rcases s.reread with fault | read <;> rfl

end Cluster

/-- **What is told of counters that are read back**: one of the doubles is not read at all, and this failure is
told; or the counters are told under the same names, the whole numbers as they were and each double as it is
read back. -/
def Issued.ReadsBack (stored : Issued) (a : Accumulators) : Prop :=
  (∃ name x fault, a.find? name = some (.double x) ∧ x.reread = .error fault
      ∧ stored = .answered (.error (.state (.codec fault))))
    ∨ ∃ read : Accumulators, stored = .answered (.ok (.counters read)) ∧ read.names = a.names
      ∧ (∀ name n, a.find? name = some (.long n) → read.find? name = some (.long n))
      ∧ ∀ name x, a.find? name = some (.double x) →
        ∃ y, x.reread = .ok y ∧ read.find? name = some (.double y)

/-- A row is read back. -/
lemma Issued.readsBack (a : Accumulators) :
    Issued.ReadsBack (.answered (match a.reread with
      | .ok read => .ok (.counters read)
      | .error fault => .error (.state (.codec fault)))) a := by
  rcases again : a.reread with fault | t
  · obtain ⟨name, x, there, failed⟩ := Accumulators.reread_error again
    exact .inl ⟨name, x, fault, there, failed, rfl⟩
  · obtain ⟨names, values⟩ := Accumulators.reread_ok again
    refine .inr ⟨t, rfl, names, fun name n there => ?_, fun name x there => ?_⟩
    · obtain ⟨b, same, present⟩ := values name _ there
      obtain rfl : .long n = b := by simpa [Accumulator.reread] using same
      exact present
    · obtain ⟨b, same, present⟩ := values name _ there
      rcases double : x.reread with fault | y
      · simp [Accumulator.reread, double, Except.map] at same
      · obtain rfl : .double y = b := by simpa [Accumulator.reread, double, Except.map] using same
        exact ⟨y, rfl, present⟩

namespace World

variable {w : World} {job : String}

/-- **The publication whose counters are stored**, for a slot with an outcome: at turn `t` the task of some
execution has published in the slot, and then the slot was `old`. -/
structure Closed (w : World) (turns : List Turn) (job : String) (slot : RunSlot) (early : List Turn) (t : Turn)
    (late : List Turn) (execution : ℕ) (old : RunSlot) : Prop where
  split : turns = early ++ t :: late
  posts : t.Posts (w.run early).cluster job execution old
  same : old.execution = slot.execution
  row : (w.run turns).cluster.store.accumulators.find? job = some (.of old.accumulators.toJson)
  /-- A task that has published in its own slot is gone. -/
  gone : execution = slot.execution → ∀ u ∈ (w.run turns).cluster.tasks, u.execution ≠ slot.execution
  /-- The counters are still those, unless somebody has written to the sink since, or the task of the execution
  has gone on after another one has published in its slot. -/
  kept : (∀ u ∈ late, ∀ w, u ≠ .tick (.write slot.execution w)) →
    (execution = slot.execution ∨ ∀ u ∈ late, u ≠ .tick (.resolve slot.execution)) →
    old.accumulators = slot.accumulators

/-- A task has just published in the slot. -/
lemma Orderly.closed_now {turns : List Turn} (h : (w.run turns).Orderly) {tick : Tick} {execution : ℕ}
    {old : RunSlot} (posts : tick.Posts (w.run turns).cluster job execution old) {slot : RunSlot}
    (found : ((w.run turns).cluster.react tick).slots.find? job = some slot) :
    w.Closed (turns ++ [.tick tick]) job slot turns (.tick tick) [] execution old := by
  have last : (w.run (turns ++ [.tick tick])).cluster = (w.run turns).cluster.react tick := by
    rw [run_concat]
    rfl
  cases posts with
  | @publish t result there phase own here now =>
      subst own
      obtain ⟨r, stored, -, after⟩ := h.attended.publishTask_eq phase here now.toNat
      rw [Cluster.react_publish there] at last found
      rw [after] at found last
      have told : some { old with outcome := some (Operation.outcomeOf old.interrupted result) } = some slot := by
        rw [← found]
        simp [Cluster.outcomeSteps, Action.perform_find?, here]
      obtain rfl := Option.some.inj told
      refine ⟨rfl, .publish there phase rfl here now, rfl, ?_, fun own u member => ?_, fun _ _ => rfl⟩
      · rw [last]
        simp [Cluster.outcomeSteps, Action.perform_accumulators]
      · rw [last] at member
        have other := (List.mem_filter.mp member).2
        rw [Cluster.findTask_execution there, own] at other
        simpa using other

/-- The slot has had an outcome before the last tick. -/
lemma Closed.concat {turns : List Turn} {old_slot : RunSlot} {early late : List Turn} {t : Turn} {execution : ℕ}
    {old : RunSlot} (h : w.Closed turns job old_slot early t late execution old)
    (orderly : (w.run turns).Orderly) {tick : Tick} {slot : RunSlot}
    (remains : (w.run turns).cluster.Remains ((w.run turns).cluster.react tick) job old_slot slot)
    (quiet : (∀ w, tick ≠ .write slot.execution w) →
      (tick = .resolve slot.execution → (w.run turns).cluster.findTask slot.execution = none) →
      old_slot.accumulators = slot.accumulators) :
    w.Closed (turns ++ [.tick tick]) job slot early t (late ++ [.tick tick]) execution old := by
  have last : (w.run (turns ++ [.tick tick])).cluster = (w.run turns).cluster.react tick := by
    rw [run_concat]
    rfl
  have number := remains.execution
  constructor
  case split => simp [h.split]
  case posts => exact h.posts
  case same => exact h.same.trans number
  case row => rw [last, remains.row, h.row]
  case gone =>
    intro own u member
    rw [last] at member
    rcases (orderly.attended.descends member).origin with ⟨v, before, -, same⟩ | ⟨q, -, -, new⟩
    · rw [← same, ← number]
      exact h.gone (own.trans number.symm) v before
    · have old := orderly.attended.tidy.numbered.slots remains.before
      omega
  case kept =>
    intro writes resolves
    rw [← number] at writes resolves
    have before := h.kept (fun u member => writes u (List.mem_append_left _ member))
      (resolves.imp_right fun none_since u member => none_since u (List.mem_append_left _ member))
    refine before.trans (quiet (fun v here => ?_) fun here => ?_)
    · exact writes (.tick tick) (by simp) v (by rw [here, number])
    · rw [← number] at here ⊢
      rcases resolves with own | none_since
      · exact List.find?_eq_none.mpr fun u member => by simpa using h.gone own u member
      · exact absurd (congrArg Turn.tick here) (none_since (.tick tick) (by simp))

/-- **A slot with an outcome** has got it by a publication, and the counters of the slot at that time are
stored. -/
theorem closed_of_run (executor : Executor) {turns : List Turn} {slot : RunSlot}
    (found : ((World.start executor).run turns).cluster.slots.find? job = some slot)
    (ended : slot.outcome ≠ none) :
    ∃ early t late execution old, (World.start executor).Closed turns job slot early t late execution old := by
  induction turns using List.reverseRecOn generalizing slot with
  | nil => simp [World.start, Cluster.ofStore] at found
  | append_singleton turns u ih =>
      have orderly := (Orderly.start executor).run turns
      rw [run_concat] at found
      cases u with
      | cut tick n => simp [turn, onCluster, Cluster.restart] at found
      | tick tick =>
          by_cases posted : ∃ execution old,
              tick.Posts ((World.start executor).run turns).cluster job execution old
          · obtain ⟨execution, old, posts⟩ := posted
            exact ⟨turns, .tick tick, [], execution, old, orderly.closed_now posts found⟩
          · obtain ⟨old_slot, remains, quiet⟩ := orderly.attended.ended_slot_react
              (fun execution old posts => posted ⟨execution, old, posts⟩) found ended
            obtain ⟨early, t, late, execution, old, closed⟩ :=
              ih remains.before (remains.outcome ▸ ended)
            exact ⟨early, t, late ++ [.tick tick], execution, old, closed.concat orderly remains quiet⟩

/-- **What a restart makes of the counters of an execution that has ended.**  Take any run from an empty
store with executors that write what counters can hold, and a job whose slot has an outcome.  The
counters in the slot are told.  Some task has published in the slot, and the counters that were in it then are
stored: after a restart it is told what these are read back as, and that is what was told before exactly when
it is the counters in the slot.  If the counters in the slot are still those that are stored, as they are when
the execution has ended by itself and nobody has written to its sink since, then the same is told after the
restart exactly when each double among them comes back as it was. -/
theorem counters_after_restart {executor : Executor} (writes : executor.InRange) {turns : List Turn}
    (exchanged : ∀ t ∈ turns, t.InRange) {job : String} {slot : RunSlot}
    (found : ((World.start executor).run turns).cluster.slots.find? job = some slot)
    (ended : slot.outcome.isSome = true) (now later : ℕ) :
    let w := (World.start executor).run turns
    let live := w.cluster.toldCounters job now
    let stored := (w.turn (.tick .restart)).cluster.toldCounters job later
    live = .answered (.ok (.counters slot.accumulators))
      ∧ ∃ early t late execution old, (World.start executor).Closed turns job slot early t late execution old
        ∧ stored.ReadsBack old.accumulators
        ∧ (stored = live ↔ old.accumulators.reread = .ok slot.accumulators)
        ∧ (old.accumulators = slot.accumulators → (stored = live ↔
          ∀ name x, slot.accumulators.find? name = some (.double x) → x.reread = .ok x)) := by
  intro w live stored
  have ranged : ∀ {some_turns : List Turn}, (∀ t ∈ some_turns, t.InRange) →
      ((World.start executor).run some_turns).cluster.InRange := fun new =>
    inRange_run ⟨by simp [World.start, Cluster.ofStore], by simp [World.start, Cluster.ofStore], writes⟩ new
  have shown : live = .answered (.ok (.counters slot.accumulators)) :=
    Cluster.toldCounters_of_slot found now
  obtain ⟨early, t, late, execution, old, closed⟩ :=
    closed_of_run executor found (Option.isSome_iff_ne_none.mp ended)
  have range : old.accumulators.InRange := by
    have there := closed.posts.there
    refine (ranged fun u member => exchanged u ?_).slots there
    rw [closed.split]
    exact List.mem_append_left _ member
  have read : stored = .answered (match old.accumulators.reread with
      | .ok read => .ok (.counters read)
      | .error fault => .error (.state (.codec fault))) :=
    Cluster.toldCounters_of_row (c := w.cluster.restart) rfl range closed.row later
  have same : stored = live ↔ old.accumulators.reread = .ok slot.accumulators := by
    rw [shown, read]
    rcases old.accumulators.reread with fault | t <;> simp
  refine ⟨shown, early, t, late, execution, old, closed, ?_, same, fun kept => ?_⟩
  · rw [read]
    exact Issued.readsBack old.accumulators
  · rw [same, kept, Accumulators.reread_eq_self_iff]

lemma setting_inRange {a : Accumulator} (range : a.InRange) : (setting a).InRange :=
  fun _ => ⟨by simpa [setting, SinkWrite.InRange] using range, trivial⟩

/-- A job that ends with an infinite counter: the counter is told until the restart, and nothing is told
afterwards. -/
theorem infinite_counter_is_lost :
    let turns := openingTurns "a" 0 ++ (Cluster.closingTicks 0 0).map .tick
    let w := (World.start (setting (.double (Double.infinity false)))).run turns
    ∃ slot, w.cluster.slots.find? "a" = some slot ∧ slot.outcome = some .completed
      ∧ (∀ t ∈ turns, t.InRange)
      ∧ w.cluster.toldCounters "a" 0 = .answered (.ok (.counters slot.accumulators))
      ∧ (w.turn (.tick .restart)).cluster.toldCounters "a" 0
        = .answered (.error (.state (.codec .mismatched))) := by
  intro turns w
  obtain ⟨task, own, running⟩ := run_opening_setting (.double (Double.infinity false))
  set counters := Accumulators.write .empty [.set "x" (.double (Double.infinity false))]
  have ended : w.cluster.slots.find? "a" = some ⟨0, false, some .completed, counters⟩ := by
    show ((World.start _).run (openingTurns "a" 0 ++ (Cluster.closingTicks 0 0).map .tick)).cluster.slots.find?
      "a" = _
    rw [run_append, run_ticks]
    exact (Cluster.play_closing_find? task rfl own rfl rfl running 0 "a").trans (if_pos rfl)
  have inRange : ∀ t ∈ turns, t.InRange := by
    simp [turns, openingTurns, Cluster.openingTicks, Cluster.openingRequests, Cluster.closingTicks, Turn.InRange]
  have unread := Double.reread_nonfinite (show (Double.infinity false).isFinite = false by decide)
  have only : ∀ name x, counters.find? name = some (.double x) → x = Double.infinity false := by
    intro name x there
    have entry : (Table.insert .empty "x" (Accumulator.double (Double.infinity false))).find? name
        = some (.double x) := there
    rw [Table.find?_insert] at entry
    split_ifs at entry with here
    · simpa [eq_comm] using entry
    · simp at entry
  obtain ⟨live, early, t, late, execution, old, closed, told, -, -⟩ :=
    counters_after_restart (setting_inRange (a := .double (Double.infinity false)) trivial) inRange
      ended rfl 0 0
  -- The only publication is that of the execution itself, and nobody has written to the sink.
  have kept : old.accumulators = counters := by
    have writes : ∀ u ∈ turns, ∀ v, u ≠ .tick (.write 0 v) := by
      simp [turns, openingTurns, Cluster.openingTicks, Cluster.openingRequests, Cluster.closingTicks]
    have publications : ∀ u ∈ turns, (∀ n now, u = .tick (.publish n now) → n = 0)
        ∧ ∀ v n, u ≠ .cut v n := by
      simp +contextual [turns, openingTurns, Cluster.openingTicks, Cluster.openingRequests, Cluster.closingTicks]
    have member : t ∈ turns := closed.split ▸ by simp
    refine closed.kept (fun u member => writes u (closed.split ▸ by simp [member])) (.inl ?_)
    rcases closed.posts.publishes with ⟨at_, rfl⟩ | ⟨at_, n, rfl⟩
    · exact (publications _ member).1 execution at_ rfl
    · exact absurd rfl ((publications _ member).2 _ n)
  rw [kept] at told
  rcases told with ⟨name, x, fault, there, failed, told⟩ | ⟨read, -, -, -, doubles⟩
  · obtain rfl := only name x there
    obtain rfl : fault = .mismatched := by simpa [unread, eq_comm] using failed
    exact ⟨_, ended, rfl, inRange, live, told⟩
  · obtain ⟨y, again, -⟩ := doubles "x" (Double.infinity false) rfl
    simp [unread] at again

end World

end ControlPlane
