import Mathlib
import ControlPlane.Proofs.Cluster.Posted
import ControlPlane.Proofs.Cluster.Progress
import ControlPlane.Proofs.Cluster.Stale

/-!
# A restart while nothing is in flight

Of an execution that has ended a cluster knows the outcome twice: in the run slot, and in the record.  A
restart leaves the record only.  Every call looks at the slot first, if there is one, and takes another way
without it; so what is left has to tell the same.

A task may be in flight although no slot is unfinished: a destruction does not stop a task that has resolved.
A restart does, and this is seen, as the task would have published in the slot of the next execution.

* `Event`, `Onlooker.meet` — what may happen to a cluster, and what it shows then.
* `Cluster.Echoes` — two clusters that differ in the slots of ended executions only.
* `Echoes.perform`, `Echoes.react`, `Echoes.issue` — steps, ticks and calls leave an echo.
* `Onlooker.Echoes.meet`, `Onlooker.Echoes.notices` — so does every event, and it shows the same.
* `Cluster.Attended.seen_of_task` — a task in flight can be seen.
* `World.restart_unseen_iff` — the statement about runs.
-/

namespace ControlPlane

/-! ## Echoes -/

namespace Cluster

/-- A slot on both sides of an echo: the same one, of a late execution, or one of an execution that has
ended early and has no slot any more. -/
inductive SlotEcho (n : ℕ) : Option RunSlot → Option RunSlot → Prop
  | same {mine : Option RunSlot} (late : ∀ slot, mine = some slot → n ≤ slot.execution) :
      SlotEcho n mine mine
  | past {slot : RunSlot} (early : slot.execution < n) (finished : slot.isFinished = true) :
      SlotEcho n (some slot) none

/-- **A cluster and its echo**, which does not know the executions below `n` any more.  These have
ended. -/
structure Echoes (n : ℕ) (c d : Cluster) : Prop where
  store : d.store = c.store
  executor : d.executor = c.executor
  next : d.nextExecution = c.nextExecution
  bound : n ≤ c.nextExecution
  tasks : d.tasks = c.tasks
  late : ∀ t ∈ c.tasks, n ≤ t.execution
  own : ∀ t ∈ c.tasks, d.slots.find? t.job = c.slots.find? t.job
  slots : ∀ job, SlotEcho n (c.slots.find? job) (d.slots.find? job)
  published : ∀ e, n ≤ e → d.published.lookup e = c.published.lookup e
  latest : ∀ job e, n ≤ e → (d.latest.find? job = some e ↔ c.latest.find? job = some e)

namespace Echoes

variable {n : ℕ} {c d : Cluster}

/-! ### Steps on both sides -/

lemma withStore (h : Echoes n c d) (s : Store) : Echoes n { c with store := s } { d with store := s } :=
  ⟨rfl, h.executor, h.next, h.bound, h.tasks, h.late, h.own, h.slots, h.published, h.latest⟩

lemma modifySlot (h : Echoes n c d) (job : String) {f : RunSlot → RunSlot}
    (execution : ∀ slot, (f slot).execution = slot.execution)
    (finished : ∀ slot, slot.isFinished = true → (f slot).isFinished = true) :
    Echoes n (c.modifySlot job f) (d.modifySlot job f) := by
  have find_eq : ∀ (c : Cluster) (key : String), (c.modifySlot job f).slots.find? key = _ := fun c key =>
    c.modifySlot_find? job f key
  constructor
  case store => simpa using h.store
  case executor =>
    rw [c.modifySlot_eq, d.modifySlot_eq]
    exact h.executor
  case next => simpa using h.next
  case bound => simpa using h.bound
  case tasks => simpa using h.tasks
  case late => simpa using h.late
  case own =>
    intro t member
    rw [modifySlot_tasks] at member
    rw [find_eq, find_eq, h.own t member]
  case slots =>
    intro key
    rw [find_eq, find_eq]
    have slot := h.slots key
    split_ifs
    · generalize c.slots.find? key = mine at slot ⊢
      generalize d.slots.find? key = other at slot ⊢
      cases slot with
      | same late =>
          refine .same fun slot found => ?_
          obtain ⟨old, before, rfl⟩ := Option.map_eq_some_iff.mp found
          rw [execution]
          exact late old before
      | past early ended => exact .past ((execution _).trans_lt early) (finished _ ended)
    · exact slot
  case published => simpa using h.published
  case latest =>
    rw [c.modifySlot_eq, d.modifySlot_eq]
    exact h.latest

lemma launch (h : Echoes n c d) (context : ExecutionContext) :
    Echoes n (c.launch context) (d.launch context) where
  store := h.store
  executor := h.executor
  next := congrArg (· + 1) h.next
  bound := h.bound.trans (Nat.le_succ _)
  tasks := by simp only [Cluster.launch, h.tasks, h.next, h.executor]
  late := by
    intro t member
    rcases List.mem_append.mp member with before | new
    · exact h.late t before
    · obtain rfl := List.mem_singleton.mp new
      exact h.bound
  own := by
    intro t member
    rw [launch_find?, launch_find?, h.next, h.executor]
    split_ifs with here
    · rfl
    · rcases List.mem_append.mp member with before | new
      · exact h.own t before
      · obtain rfl := List.mem_singleton.mp new
        exact absurd rfl here
  slots := by
    intro key
    rw [launch_find?, launch_find?, h.next, h.executor]
    split_ifs
    · refine .same fun slot found => ?_
      obtain rfl := Option.some.inj found
      exact h.bound
    · exact h.slots key
  published := h.published
  latest := by
    intro job e late
    simp only [Cluster.launch, Table.find?_insert, h.next]
    split_ifs
    · rfl
    · exact h.latest job e late

/-- The slots of a job tell whether it has tasks. -/
lemma removeSlot (h : Echoes n c d) (job : String) : Echoes n (c.removeSlot job) (d.removeSlot job) := by
  have tasks : (d.removeSlot job).tasks = (c.removeSlot job).tasks := by
    have slot := h.slots job
    unfold Cluster.removeSlot
    generalize c.slots.find? job = mine at slot ⊢
    generalize d.slots.find? job = other at slot ⊢
    cases slot with
    | @same mine late => cases mine <;> simp [h.tasks]
    | @past slot early ended =>
        refine h.tasks.trans (List.filter_eq_self.mpr fun t member => ?_).symm
        have := h.late t member
        simp [show t.execution ≠ slot.execution by omega]
  have fewer : ∀ t ∈ (c.removeSlot job).tasks, t ∈ c.tasks := fun t member => (mem_removeSlot member).1
  have find_eq : ∀ (c : Cluster) (key : String), (c.removeSlot job).slots.find? key = _ := fun c key =>
    c.removeSlot_find? job key
  constructor
  case store => simpa using h.store
  case executor =>
    rw [c.removeSlot_eq, d.removeSlot_eq]
    exact h.executor
  case next => simpa using h.next
  case bound => simpa using h.bound
  case tasks => exact tasks
  case late => exact fun t member => h.late t (fewer t member)
  case own =>
    intro t member
    rw [find_eq, find_eq, h.own t (fewer t member)]
  case slots =>
    intro key
    rw [find_eq, find_eq]
    split_ifs
    · exact .same (by simp)
    · exact h.slots key
  case published => simpa using h.published
  case latest =>
    rw [c.removeSlot_eq, d.removeSlot_eq]
    exact h.latest

lemma setOutcome (h : Echoes n c d) (job : String) (outcome : Job.Outcome) :
    Echoes n (c.setOutcome job outcome) (d.setOutcome job outcome) := by
  have told := h.modifySlot job (f := fun slot => { slot with outcome := some outcome }) (fun _ => rfl)
    fun _ _ => rfl
  rw [setOutcome_eq_modifySlot, setOutcome_eq_modifySlot]
  refine ⟨told.store, told.executor, told.next, told.bound, told.tasks, told.late, told.own, told.slots,
    fun e late => ?_, told.latest⟩
  have slot := h.slots job
  generalize c.slots.find? job = mine at slot ⊢
  generalize d.slots.find? job = other at slot ⊢
  cases slot with
  | @same mine late' =>
      cases mine with
      | none => exact h.published e late
      | some slot =>
          simp only [List.lookup_cons]
          split
          · rfl
          · exact h.published e late
  | @past slot early ended =>
      simp only [List.lookup_cons]
      rw [beq_false_of_ne (show e ≠ slot.execution by omega)]
      exact h.published e late

/-- **Every step** on both sides. -/
theorem perform (h : Echoes n c d) (a : Action) : Echoes n (a.perform c).2 (a.perform d).2 := by
  cases a
  case launch context => exact h.launch context
  case requestInterrupt job => exact h.modifySlot job (fun _ => rfl) fun _ finished => finished
  case removeSlot job => exact h.removeSlot job
  case setOutcome job outcome => exact h.setOutcome job outcome
  case putJob | putResources | putGraph | putAccumulators | purge =>
    simp only [Action.perform, h.store]
    exact h.withStore _
  all_goals exact h

lemma after (h : Echoes n c d) (actions : List Action) : Echoes n (c.after actions) (d.after actions) := by
  induction actions generalizing c d with
  | nil => exact h
  | cons a rest ih => exact ih (h.perform a)

/-! ### Ticks on both sides -/

lemma findTask (h : Echoes n c d) (execution : ℕ) : d.findTask execution = c.findTask execution := by
  simp only [Cluster.findTask, h.tasks]

/-- A task looks for its slot. -/
lemma sees_slot (h : Echoes n c d) {t : RunTask} (member : t ∈ c.tasks) :
    d.isInterrupted t = c.isInterrupted t ∧ d.countersOf t = c.countersOf t := by
  simp only [isInterrupted, countersOf, h.own t member, and_self]

lemma replaceTask (h : Echoes n c d) {t u : RunTask} (member : u ∈ c.tasks)
    (execution : t.execution = u.execution) (job : t.job = u.job) :
    Echoes n (c.replaceTask t) (d.replaceTask t) := by
  refine ⟨h.store, h.executor, h.next, h.bound, by simp only [Cluster.replaceTask, h.tasks], ?_, ?_,
    h.slots, h.published, h.latest⟩
  all_goals
    intro v after
    obtain ⟨before, old, rfl⟩ := List.mem_map.mp after
    split_ifs
  · exact execution ▸ h.late u member
  · exact h.late before old
  · exact job ▸ h.own u member
  · exact h.own before old

lemma putCounters (h : Echoes n c d) (t : RunTask) (a : Accumulators) :
    Echoes n (c.putCounters t a) (d.putCounters t a) := by
  rw [putCounters_eq_modifySlot, putCounters_eq_modifySlot]
  refine h.modifySlot t.job (fun slot => ?_) fun slot finished => ?_
  · split_ifs <;> rfl
  · split_ifs <;> exact finished

lemma resolveTask (h : Echoes n c d) {t : RunTask} (member : t ∈ c.tasks) :
    Echoes n (c.resolveTask t) (d.resolveTask t) := by
  obtain ⟨interrupted, counters⟩ := h.sees_slot member
  unfold Cluster.resolveTask
  cases t.phase with
  | resolved result => exact h
  | working work =>
      simp only [interrupted, counters]
      split_ifs
      · exact h.replaceTask member rfl rfl
      · have written := h.putCounters t (work.advance t.gateOpen (c.countersOf t)).2
        have member' : t ∈ (c.putCounters t (work.advance t.gateOpen (c.countersOf t)).2).tasks := by
          simpa using member
        cases (work.advance t.gateOpen (c.countersOf t)).1.result? with
        | some result => exact written.replaceTask member' rfl rfl
        | none => exact written.replaceTask member' rfl rfl

lemma resolved (h : Echoes n c d) (execution : ℕ) :
    Echoes n (c.resolved execution) (d.resolved execution) := by
  unfold Cluster.resolved
  rw [h.findTask]
  cases found : c.findTask execution with
  | none => exact h
  | some t => exact h.resolveTask (List.mem_of_find?_eq_some found)

/-- **A publication** takes the same steps on both sides. -/
lemma publication (h : Echoes n c d) (execution now : ℕ) :
    d.publication execution now = c.publication execution now := by
  unfold Cluster.publication
  rw [h.findTask]
  cases found : c.findTask execution with
  | none => rfl
  | some t =>
      have own := h.own t (List.mem_of_find?_eq_some found)
      simp only [Operation.plan_publish, Operation.plan_persist, own, h.store]

lemma retire (h : Echoes n c d) (execution : ℕ) :
    Echoes n (c.retire execution) (d.retire execution) := by
  unfold Cluster.retire
  rw [h.findTask]
  cases c.findTask execution with
  | none => exact h
  | some t =>
      simp only
      cases t.phase with
      | working work => exact h
      | resolved result =>
          refine ⟨h.store, h.executor, h.next, h.bound, by simp only [h.tasks], ?_, ?_, h.slots,
            h.published, h.latest⟩
          · exact fun t member => h.late t (List.mem_filter.mp member).1
          · exact fun t member => h.own t (List.mem_filter.mp member).1

/-- **A task publishes** on both sides. -/
theorem publish (h : Echoes n c d) (execution : ℕ) (now : UInt64) :
    Echoes n (c.react (.publish execution now)) (d.react (.publish execution now)) := by
  rw [react_publish_eq, react_publish_eq, h.publication]
  exact (h.after _).retire execution

/-- Somebody writes to the counters of an execution on both sides. -/
lemma writeSink (h : Echoes n c d) (execution : ℕ) (w : SinkWrite) :
    Echoes n (c.writeSink execution w) (d.writeSink execution w) := by
  refine ⟨h.store, h.executor, h.next, h.bound, h.tasks, h.late, fun t member => ?_, fun job => ?_,
    h.published, h.latest⟩
  · rw [writeSink_find?, writeSink_find?, h.own t member]
  · have slot := h.slots job
    rw [writeSink_find?, writeSink_find?]
    generalize c.slots.find? job = mine at slot ⊢
    generalize d.slots.find? job = other at slot ⊢
    cases slot with
    | same late =>
        refine .same fun slot found => ?_
        obtain ⟨old, before, rfl⟩ := Option.map_eq_some_iff.mp found
        have := late old before
        split_ifs <;> exact this
    | past early finished =>
        refine .past ?_ ?_ <;> simp only
        · split_ifs <;> exact early
        · split_ifs <;> exact finished

/-- A gate opens for a late execution, or for none. -/
lemma openGate (h : Echoes n c d) (job : String) : Echoes n (c.openGate job).2 (d.openGate job).2 := by
  have tasks : (d.tasks.map fun t =>
      if d.latest.find? job = some t.execution then { t with gateOpen := true } else t)
        = c.tasks.map fun t =>
          if c.latest.find? job = some t.execution then { t with gateOpen := true } else t := by
    rw [h.tasks]
    refine List.map_congr_left fun t member => ?_
    simp only [h.latest job t.execution (h.late t member)]
  rw [openGate_eq, openGate_eq]
  refine ⟨h.store, h.executor, h.next, h.bound, tasks, ?_, ?_, h.slots, h.published, h.latest⟩
  all_goals
    intro v after
    obtain ⟨before, old, rfl⟩ := List.mem_map.mp after
    split_ifs
  · exact h.late before old
  · exact h.late before old
  · exact h.own before old
  · exact h.own before old

/-- A restart leaves nothing to differ in. -/
lemma restart (h : Echoes n c d) : Echoes n c.restart d.restart where
  store := h.store
  executor := h.executor
  next := h.next
  bound := h.bound
  tasks := rfl
  late := by simp [Cluster.restart]
  own := by simp [Cluster.restart]
  slots := fun job => .same (by simp [Cluster.restart])
  published := fun _ _ => rfl
  latest := fun _ _ _ => Iff.rfl

/-! ### The same answers -/

lemma findRecord (h : Echoes n c d) (job : String) : d.findRecord job = c.findRecord job := by
  unfold Cluster.findRecord
  rw [h.store]

/-- What the record of an ended execution tells, which is all that is left of it. -/
lemma storedOutcome_past (attended : c.Attended) (posted : c.Posted) {job : String} {slot : RunSlot}
    {outcome : Job.Outcome} (found : c.slots.find? job = some slot)
    (ended : slot.outcome = some outcome) :
    (∃ r, c.findRecord job = .ok r)
      ∧ (Operation.plan c (Operation.storedOutcome job)).1 = .ok outcome := by
  obtain ⟨r, stored, tells⟩ := attended.of_slot found
  have record := findRecord_of_stores (posted.valid found) stored
  rw [ended] at tells
  obtain ⟨status, failure⟩ : r.status = Operation.statusOf outcome
    ∧ r.failure = Operation.reasonOf outcome := tells
  refine ⟨⟨r, record⟩, ?_⟩
  rw [Operation.plan_storedOutcome, record]
  cases outcome <;> simp [status, failure, Operation.statusOf, Operation.reasonOf]

open Operation in
/-- **A call** gets the same answer and takes the same steps, if it does not ask for counters. -/
theorem plan_eq (h : Echoes n c d) (attended : c.Attended) (posted : c.Posted) {call : Call}
    (told : call ≠ .accumulators) (job : String) (now : ℕ) :
    Operation.plan d (call.operation job now) = Operation.plan c (call.operation job now) := by
  have checked : ∀ rs, plan d (checkResources job rs) = plan c (checkResources job rs) :=
    plan_checkResources_congr fun name => by rw [h.store]
  cases call with
  | register config => simp only [Call.operation, plan_map, plan_register, h.store]
  | deploy rs => simp only [Call.operation, plan_map, plan_deploy, h.findRecord, checked]
  | submit graph => simp only [Call.operation, plan_map, plan_submit, h.findRecord, h.store]
  | start => simp only [Call.operation, plan_map, plan_start, h.findRecord, h.store]
  | await => simp only [Call.operation, plan_map, plan_storedOutcome, h.findRecord]
  | interrupt =>
      simp only [Call.operation, plan_map, plan_interrupt, h.findRecord]
      have slot := h.slots job
      cases mine : c.slots.find? job with
      | none =>
          rw [mine] at slot
          generalize d.slots.find? job = other at slot ⊢
          cases slot
          rfl
      | some s =>
          rw [mine] at slot
          generalize d.slots.find? job = other at slot ⊢
          cases slot with
          | same => rfl
          | past early finished =>
              obtain ⟨outcome, ended⟩ := Option.isSome_iff_exists.mp finished
              obtain ⟨⟨r, record⟩, -⟩ := storedOutcome_past attended posted mine ended
              simp [record, finished]
  | destroy => simp only [Call.operation, plan_map, plan_destroy]
  | accumulators => exact absurd rfl told

end Echoes

/-! ### Those who wait -/

end Cluster

/-- Two calls that have been answered alike, or that will be.  Somebody may wait for an execution that
has ended where the other one has been told the outcome. -/
inductive Issued.Echoes (n : ℕ) (c : Cluster) : Issued → Issued → Prop where
  | answered (answer : Answer) : Echoes n c (.answered answer) (.answered answer)
  | told (answer : Except ClusterError Job.Outcome) :
      Echoes n c (.waiting (.answered answer)) (.waiting (.answered answer))
  | waits {job : String} {e : ℕ} (late : n ≤ e) :
      Echoes n c (.waiting (.waiting job e)) (.waiting (.waiting job e))
  | past {job : String} {e : ℕ} {outcome : Job.Outcome} (early : e < n)
      (known : c.published.lookup e = some outcome) :
      Echoes n c (.waiting (.waiting job e)) (.waiting (.answered (.ok outcome)))

namespace Issued.Echoes

variable {n : ℕ} {c d : Cluster} {i j : Issued}

/-- What has been published early stays. -/
lemma later (h : Echoes n c i j) (kept : ∀ e < n, d.published.lookup e = c.published.lookup e) :
    Echoes n d i j := by
  cases h with
  | answered answer => exact .answered answer
  | told answer => exact .told answer
  | waits late => exact .waits late
  | past early known => exact .past early ((kept _ early).trans known)

/-- **Both get their answers** at the same time, and the same ones. -/
lemma poll_eq (h : Echoes n c i j) (echoes : Cluster.Echoes n c d) : j.poll d = i.poll c := by
  cases h with
  | answered answer => rfl
  | told answer => rfl
  | @waits job e late =>
      have kept : Waiter.isKept d job e = Waiter.isKept c job e := by
        have slot := echoes.slots job
        unfold Waiter.isKept
        generalize c.slots.find? job = mine at slot ⊢
        generalize d.slots.find? job = other at slot ⊢
        cases slot with
        | same => rfl
        | @past s early finished => simp [show s.execution ≠ e by omega]
      simp only [Issued.poll, Waiter.poll, echoes.published e late, kept]
  | past early known => simp [Issued.poll, Waiter.poll, known]

end Issued.Echoes

namespace Cluster.Echoes

variable {n : ℕ} {c d : Cluster}

/-- Somebody who begins to wait for an execution that has ended is told the outcome by the record, if there
is no slot. -/
lemma start (h : Echoes n c d) (attended : c.Attended) (posted : c.Posted) (job : String) :
    Issued.Echoes n c (.waiting (Waiter.start c job)) (.waiting (Waiter.start d job)) := by
  have told : Operation.plan d (Operation.storedOutcome job)
      = Operation.plan c (Operation.storedOutcome job) := by
    rw [Operation.plan_storedOutcome, Operation.plan_storedOutcome, h.findRecord]
  have slot := h.slots job
  rw [Waiter.start_eq, Waiter.start_eq, told]
  cases mine : c.slots.find? job with
  | none =>
      rw [mine] at slot
      generalize d.slots.find? job = other at slot ⊢
      cases slot
      exact .told _
  | some s =>
      rw [mine] at slot
      generalize d.slots.find? job = other at slot ⊢
      cases slot with
      | same late => exact .waits (late s rfl)
      | past early finished =>
          obtain ⟨outcome, ended⟩ := Option.isSome_iff_exists.mp finished
          obtain ⟨-, stored⟩ := storedOutcome_past attended posted mine ended
          simp only [stored]
          exact .past early ((posted.posted mine).trans ended)

/-- The steps of a call, also of one that asks for counters. -/
lemma actions_eq (h : Echoes n c d) (attended : c.Attended) (posted : c.Posted) (q : Request) :
    q.actions d = q.actions c := by
  by_cases told : q.call = .accumulators
  · rw [Request.actions, Request.actions, Call.actions_eq, Call.actions_eq, told]
  · exact congrArg Prod.snd (h.plan_eq attended posted told q.job q.now.toNat)

/-- **Every tick** on both sides. -/
theorem react (h : Echoes n c d) (attended : c.Attended) (posted : c.Posted) (t : Tick) :
    Echoes n (c.react t) (d.react t) := by
  cases t with
  | call q =>
      rw [react_call, react_call, h.actions_eq attended posted]
      exact h.after _
  | resolve execution => exact h.resolved execution
  | publish execution now => exact h.publish execution now
  | write execution w => exact h.writeSink execution w
  | openGate job => exact h.openGate job
  | exchange executor =>
      exact ⟨h.store, rfl, h.next, h.bound, h.tasks, h.late, h.own, h.slots, h.published, h.latest⟩
  | restart => exact h.restart

/-- **A call** gets the same answer, if it does not ask for counters. -/
theorem issue (h : Echoes n c d) (attended : c.Attended) (posted : c.Posted) {q : Request}
    (told : q.call ≠ .accumulators) :
    Issued.Echoes n c (c.issue q.now.toNat q.job q.call).1 (d.issue q.now.toNat q.job q.call).1 := by
  by_cases waits : q.call = .await
  · rw [waits]
    exact h.start attended posted q.job
  · rw [issue_answer c _ _ waits, issue_answer d _ _ waits, h.plan_eq attended posted told]
    exact .answered _

/-- Nothing is published under an early number. -/
lemma lookup_react (h : Echoes n c d) (attended : c.Attended) {t : Tick} (goes_on : t ≠ .restart) {e : ℕ}
    (early : e < n) : (c.react t).published.lookup e = c.published.lookup e := by
  cases t with
  | call q =>
      have effect := q.effect c
      rw [react_call]
      generalize q.actions c = actions at effect
      obtain ⟨job, call, now, fits⟩ := q
      cases effect <;> simp [Action.perform_published]
  | resolve execution => exact congrArg (List.lookup e) (c.resolved_published execution)
  | publish execution now =>
      have reports := attended.reports execution now.toNat
      rw [react_publish_eq, retire_eq]
      show (c.after (c.publication execution now.toNat)).published.lookup e = _
      generalize c.publication execution now.toNat = steps at reports
      cases reports with
      | nothing => rfl
      | @outcome t result slot r found phase there stored tells =>
          have own := h.own t (List.mem_of_find?_eq_some found)
          have echo := h.slots t.job
          rw [own, there] at echo
          have late : n ≤ slot.execution := by
            cases echo with
            | same late => exact late slot rfl
          simp only [outcomeSteps, after_cons, after_nil, Action.perform_published, Action.perform_find?, there]
          rw [List.lookup_cons, beq_false_of_ne (show e ≠ slot.execution by omega)]
  | write execution w => rfl
  | openGate job => exact congrArg (List.lookup e) (c.openGate_published job)
  | exchange executor => rfl
  | restart => exact absurd rfl goes_on

end Cluster.Echoes

/-! ## What can be seen -/

namespace Table

variable {α : Type} (t : Table α) (keep : α → Bool)

/-- The entries whose values satisfy `keep`. -/
def only : Table α := ⟨t.entries.filter fun e => keep e.2, t.ordered.sublist List.filter_sublist⟩

lemma values_only : (t.only keep).values = t.values.filter keep := by
  rw [values, values, List.filter_map]
  rfl

lemma find?_only (name : String) : (t.only keep).find? name = (t.find? name).filter keep := by
  obtain ⟨entries, ordered⟩ := t
  show lookup name (entries.filter fun e => keep e.2) = (lookup name entries).filter keep
  induction entries with
  | nil => rfl
  | cons e rest ih =>
      obtain ⟨first, others⟩ := List.pairwise_cons.mp ordered
      obtain ⟨key, value⟩ := e
      rw [List.filter_cons, lookup]
      by_cases here : key = name
      · -- The name does not occur once more.
        have none_left : lookup name (rest.filter fun e => keep e.2) = none :=
          lookup_eq_none_of_lt fun e member => here ▸ first e (List.mem_filter.mp member).1
        cases kept : keep value <;> simp [kept, here, lookup, none_left, Option.filter]
      · have others := ih others
        cases keep value <;> simp [here, lookup, others]

end Table

/-- **What may happen to a cluster, and what may be asked of it.**  Those who ask for counters are left
out. -/
inductive Event where
  /-- A call, and the answer that it gets at once if there is one. -/
  | call (q : Request) (told : q.call ≠ .accumulators)
  /-- The answer to the call with number `n`, if there is one by now. -/
  | look (n : ℕ)
  /-- All records. -/
  | list
  /-- The number of executions without an outcome. -/
  | active
  /-- Something happens, and if it is a call then nobody takes the answer.  After a restart nobody has called
  anything yet. -/
  | tick (t : Tick)

/-- What an event shows. -/
inductive Notice where
  | answer (answer : Option Answer)
  | records (rs : Except StoreError (List Record))
  | count (n : ℕ)
  | nothing

/-- Somebody who has called a cluster, with the calls in their order. -/
structure Onlooker where
  cluster : Cluster
  issued : List Issued

/-- **One event.** -/
def Onlooker.meet (v : Onlooker) : Event → Notice × Onlooker
  | .call q _ =>
    let (issued, c) := v.cluster.issue q.now.toNat q.job q.call
    (.answer (issued.poll c), ⟨c, v.issued ++ [issued]⟩)
  | .look n => (.answer (v.issued[n]?.bind (Issued.poll v.cluster)), v)
  | .list => (.records v.cluster.store.listJobs, v)
  | .active => (.count v.cluster.activeJobs, v)
  | .tick .restart => (.nothing, ⟨v.cluster.restart, []⟩)
  | .tick t => (.nothing, ⟨v.cluster.react t, v.issued⟩)

/-- What is seen in the course of events. -/
def Onlooker.notices (v : Onlooker) : List Event → List Notice
  | [] => []
  | e :: rest => (v.meet e).1 :: (v.meet e).2.notices rest

/-- **What a cluster shows** to those who have not called it yet. -/
def Cluster.notices (c : Cluster) (events : List Event) : List Notice := Onlooker.notices ⟨c, []⟩ events

namespace Onlooker

/-- What is seen of a cluster, and of its echo. -/
structure Echoes (n : ℕ) (v v' : Onlooker) : Prop where
  attended : v.cluster.Attended
  posted : v.cluster.Posted
  cluster : Cluster.Echoes n v.cluster v'.cluster
  issued : List.Forall₂ (Issued.Echoes n v.cluster) v.issued v'.issued

namespace Echoes

variable {n : ℕ} {v v' : Onlooker}

lemma look (h : Echoes n v v') (k : ℕ) :
    v'.issued[k]?.bind (Issued.poll v'.cluster) = v.issued[k]?.bind (Issued.poll v.cluster) := by
  have issued := h.issued
  generalize v.issued = mine at issued
  generalize v'.issued = other at issued
  induction issued generalizing k with
  | nil => rfl
  | cons first rest ih =>
      cases k with
      | zero => simpa using first.poll_eq h.cluster
      | succ k => simpa using ih k

/-- The executions that are forgotten have outcomes. -/
lemma active (h : Echoes n v v') : v'.cluster.activeJobs = v.cluster.activeJobs := by
  have same : v'.cluster.slots.only (fun s => !s.isFinished) = v.cluster.slots.only fun s => !s.isFinished := by
    refine Table.ext_find? fun job => ?_
    rw [Table.find?_only, Table.find?_only]
    have slot := h.cluster.slots job
    generalize v.cluster.slots.find? job = mine at slot ⊢
    generalize v'.cluster.slots.find? job = other at slot ⊢
    cases slot with
    | same => rfl
    | past early finished => simp [finished, Option.filter]
  rw [Cluster.activeJobs, Cluster.activeJobs, ← Table.values_only, ← Table.values_only, same]

/-- **One tick on both sides**, and those who have called before. -/
lemma react (h : Echoes n v v') {t : Tick} (goes_on : t ≠ .restart) :
    Echoes n ⟨v.cluster.react t, v.issued⟩ ⟨v'.cluster.react t, v'.issued⟩ where
  attended := h.attended.react t
  posted := h.posted.react t
  cluster := h.cluster.react h.attended h.posted t
  issued := h.issued.imp fun _ _ pair =>
    pair.later fun _ early => h.cluster.lookup_react h.attended goes_on early

/-- **One event on both sides** shows the same, and leaves an echo. -/
theorem meet (h : Echoes n v v') (e : Event) :
    Echoes n (v.meet e).2 (v'.meet e).2 ∧ (v'.meet e).1 = (v.meet e).1 := by
  cases e with
  | call q told =>
      have after := h.react (t := .call q) (by simp)
      have answer := (h.cluster.issue h.attended h.posted told).later (d := v.cluster.react (.call q))
        fun e early => h.cluster.lookup_react h.attended (by simp) early
      exact ⟨⟨after.attended, after.posted, after.cluster, List.rel_append after.issued (.cons answer .nil)⟩,
        congrArg Notice.answer (answer.poll_eq after.cluster)⟩
  | look k => exact ⟨h, congrArg Notice.answer (h.look k)⟩
  | list => exact ⟨h, congrArg Notice.records (by rw [h.cluster.store])⟩
  | active => exact ⟨h, congrArg Notice.count h.active⟩
  | tick t =>
      by_cases restarts : t = .restart
      · subst restarts
        exact ⟨⟨h.attended.react .restart, h.posted.react .restart, h.cluster.restart, .nil⟩, rfl⟩
      · have after := h.react restarts
        cases t <;> first | exact absurd rfl restarts | exact ⟨after, rfl⟩

/-- **Events one after the other.** -/
theorem notices (h : Echoes n v v') (events : List Event) : v'.notices events = v.notices events := by
  induction events generalizing v v' with
  | nil => rfl
  | cons e rest ih =>
      obtain ⟨next, notice⟩ := h.meet e
      rw [Onlooker.notices, Onlooker.notices, notice, ih next]

end Echoes
end Onlooker

namespace Cluster

variable {c : Cluster} {job : String}

/-- Who would interrupt an execution is told whether it has an outcome. -/
lemma answer_interrupt {slot : RunSlot} (found : c.slots.find? job = some slot) (now : ℕ) :
    (c.issue now job .interrupt).1
      = .answered (if slot.isFinished = true then .error (.notRunning job) else .ok .done) := by
  rw [issue_answer _ _ _ (by simp), Call.operation, Operation.plan_map, Operation.plan_interrupt, found]
  simp only
  split_ifs <;> rfl

/-- What somebody sees of an execution that has ended, who waits for it and who would interrupt it. -/
lemma notices_ended {slot : RunSlot} {outcome : Job.Outcome} (found : c.slots.find? job = some slot)
    (ended : slot.outcome = some outcome) (known : c.published.lookup slot.execution = some outcome)
    (now : UInt64) :
    c.notices [.call ⟨job, .await, now, trivial⟩ (by simp), .call ⟨job, .interrupt, now, trivial⟩ (by simp)]
      = [.answer (some (.ok (.outcome outcome))), .answer (some (.error (.notRunning job)))] := by
  have waits : Waiter.start c job = .waiting job slot.execution := by
    rw [Waiter.start_eq, found]
  have finished : slot.isFinished = true := by simp [RunSlot.isFinished, ended]
  have refused : (c.issue now.toNat job .interrupt).1 = .answered (.error (.notRunning job)) := by
    rw [answer_interrupt found, if_pos finished]
  have first : Onlooker.meet ⟨c, []⟩ (.call ⟨job, .await, now, trivial⟩ (by simp))
      = (.answer (some (.ok (.outcome outcome))), ⟨c, [.waiting (.waiting job slot.execution)]⟩) := by
    simp only [Onlooker.meet, issue, waits, Issued.poll, Waiter.poll, known]
    rfl
  rw [notices, Onlooker.notices, first, Onlooker.notices]
  simp only [Onlooker.meet, refused, Issued.poll, Onlooker.notices]

/-! ## Tasks in flight -/

/-- An execution without an outcome is counted. -/
lemma finished_of_active (none_active : c.activeJobs = 0) {slot : RunSlot}
    (found : c.slots.find? job = some slot) : slot.isFinished = true := by
  have none_left := List.filter_eq_nil_iff.mp (List.length_eq_zero_iff.mp none_active)
  have among : slot ∈ c.slots.values := List.mem_map.mpr ⟨_, Table.mem_entries_iff.mpr found, rfl⟩
  simpa using none_left slot among

/-- What is seen after some ticks. -/
lemma notices_ticks (c : Cluster) (ticks : List Tick) (e : Event) :
    c.notices (ticks.map .tick ++ [e])
      = ticks.map (fun _ => .nothing) ++ [(Onlooker.meet ⟨c.play ticks, []⟩ e).1] := by
  induction ticks generalizing c with
  | nil => rfl
  | cons t rest ih =>
      have first : Onlooker.meet ⟨c, []⟩ (.tick t) = (.nothing, ⟨c.react t, []⟩) := by
        cases t <;> rfl
      show _ :: Onlooker.notices _ _ = _
      rw [first]
      exact congrArg _ (ih (c.react t))

/-- A task goes as far as it can when nothing keeps it waiting. -/
lemma resolved_of_open {t : RunTask} {execution : ℕ} (found : c.findTask execution = some t)
    (opened : RunTask.isWorking t = true → t.gateOpen = true) :
    ∃ u, (c.resolved execution).findTask execution = some u ∧ u.job = t.job
      ∧ RunTask.isWorking u = false := by
  have same := findTask_execution found
  simp only [resolved, found]
  cases phase : t.phase with
  | resolved result => exact ⟨t, by simpa [resolveTask, phase] using found, rfl, by simp [RunTask.isWorking, phase]⟩
  | working work =>
      have gate : t.gateOpen = true := opened (by simp [RunTask.isWorking, phase])
      obtain ⟨a, result, eq⟩ : ∃ a result,
          c.resolveTask t = (c.putCounters t a).replaceTask { t with phase := .resolved result } := by
        simp only [resolveTask, phase, gate, Work.result?_advance]
        split_ifs
        · exact ⟨c.countersOf t, none, by rw [putCounters_countersOf]⟩
        · exact ⟨_, _, rfl⟩
      have there : (c.putCounters t a).findTask execution = some t := by simpa [findTask] using found
      rw [eq]
      exact ⟨_, findTask_replaceTask _ there same, rfl, rfl⟩

/-- A job that has been destroyed, of which nothing is left but perhaps a task. -/
structure Bereft (c : Cluster) (job : String) : Prop where
  lacks : c.Lacks job
  free : c.slots.find? job = none
  unlisted : c.store.listResources job = .ok []

lemma destroy_eq (valid : Job.isName job = true) (c : Cluster) (now : UInt64) :
    c.react (.call ⟨job, .destroy, now, trivial⟩) = c.after [.removeSlot job, .purge job] := by
  rw [react_call, Request.actions, Call.actions_destroy c now.toNat valid]

lemma bereft_destroyed (c : Cluster) (job : String) : (c.after [.removeSlot job, .purge job]).Bereft job where
  lacks := by simp [Lacks, Action.perform_getJob]
  free := by simp [Action.perform_find?]
  unlisted := Store.listResources_purge _ job

/-- A task goes as far as it can, its job is destroyed and started again, and then the task publishes. -/
def flight (job : String) (execution : ℕ) : List Tick :=
  [.openGate job, .resolve execution, .call ⟨job, .destroy, 0, trivial⟩] ++ openingTicks job 0
    ++ [.publish execution 0]

lemma play_flight (valid : Job.isName job = true) (c : Cluster) (execution : ℕ) :
    c.play (flight job execution)
      = (Cluster.opened (((c.react (.openGate job)).react (.resolve execution)).after [.removeSlot job, .purge job])
          job (0 : UInt64).toNat).react (.publish execution 0) := by
  rw [flight, play_concat, play_append, play_cons, play_cons, play_cons, destroy_eq valid]
  have bereft := bereft_destroyed ((c.react (.openGate job)).react (.resolve execution)) job
  exact congrArg (fun c => react c _) (play_openingTicks bereft.lacks valid bereft.unlisted 0)

/-- **A task in flight** is still there when its job has been destroyed. -/
lemma Attended.outlives (h : c.Attended) (posted : c.Posted) {t : RunTask}
    (found : c.findTask t.execution = some t) :
    ∃ u ∈ (((c.react (.openGate t.job)).react (.resolve t.execution)).after [.removeSlot t.job, .purge t.job]).tasks,
      u.job = t.job ∧ u.execution = t.execution := by
  have opened : c.react (.openGate t.job) = _ := openGate_eq c t.job
  set released : RunTask → RunTask := fun u =>
    if c.latest.find? t.job = some u.execution then { u with gateOpen := true } else u with gate
  have there : (c.react (.openGate t.job)).findTask t.execution = some (released t) := by
    have same : ∀ u, (released u).execution = u.execution := fun u => by
      simp only [gate]
      split_ifs <;> rfl
    rw [opened, findTask, List.find?_map]
    simp only [Function.comp_def, same]
    exact congrArg (Option.map released) found
  have attended := h.react (.openGate t.job)
  obtain ⟨u, here, own, idle⟩ := resolved_of_open there fun working => by
    have busy : RunTask.isWorking t = true := by
      simp only [gate] at working
      split_ifs at working <;> exact working
    obtain ⟨slot, mine, same⟩ := number?_eq_some.mp (h.own t (List.mem_of_find?_eq_some found) busy)
    have latest := posted.newest mine
    simp [gate, latest, same]
  have number := findTask_execution here
  have job : u.job = t.job := by
    rw [own, gate]
    simp only
    split_ifs <;> rfl
  obtain ⟨left, -⟩ := ((attended.react (.resolve t.execution)).mem_tasks_destroyed u).mpr
    ⟨List.mem_of_find?_eq_some here, job, idle⟩
  exact ⟨u, left, job, number⟩

/-- Then it publishes in the slot of the next execution. -/
lemma Attended.ends_next (h : c.Attended) (posted : c.Posted) {t : RunTask}
    (found : c.findTask t.execution = some t) :
    ∃ slot, (c.play (flight t.job t.execution)).slots.find? t.job = some slot ∧ slot.outcome ≠ none := by
  have valid := h.valid t (List.mem_of_find?_eq_some found)
  obtain ⟨u, left, own, number⟩ := h.outlives posted found
  have attended := ((h.react (.openGate t.job)).react (.resolve t.execution)).react
    (.call ⟨t.job, .destroy, 0, trivial⟩)
  rw [destroy_eq valid] at attended
  obtain ⟨slot, -, there, ended, -⟩ := attended.late_publication (bereft_destroyed _ _).free left own 0
  rw [number, ← play_flight valid] at there
  exact ⟨slot, there, ended⟩

/-- After a restart there is no task, and the next execution is at work. -/
lemma restart_play_flight (valid : Job.isName job = true) (c : Cluster) (execution : ℕ) :
    ∃ slot, (c.restart.play (flight job execution)).slots.find? job = some slot ∧ slot.outcome = none := by
  have gone : (c.restart.react (.openGate job)).react (.resolve execution) = c.restart := by
    simp [react, openGate, restart, resolved, findTask]
  have nobody : ∀ u ∈ (c.restart.after [.removeSlot job, .purge job]).tasks, u.execution ≠ execution := by
    simp [Action.perform_tasks, removeSlot, restart]
  have fresh := opened_find? (c.restart.after [.removeSlot job, .purge job]) job (0 : UInt64).toNat job
  rw [play_flight valid, gone, react_publish_opened nobody]
  exact ⟨_, fresh.trans (if_pos rfl), rfl⟩

/-- **A task in flight can be seen**: it ends the next execution, but not after a restart. -/
theorem Attended.seen_of_task (h : c.Attended) (posted : c.Posted) (busy : c.tasks ≠ []) :
    ∃ events, c.restart.notices events ≠ c.notices events := by
  obtain ⟨t, rest, tasks⟩ := List.exists_cons_of_ne_nil busy
  have found : c.findTask t.execution = some t := by simp [findTask, tasks]
  have valid := h.valid t (by simp [tasks])
  set interrupt : Event := .call ⟨t.job, .interrupt, 0, trivial⟩ (by simp) with last
  have told : ∀ {d : Cluster} {slot : RunSlot}, d.slots.find? t.job = some slot →
      (Onlooker.meet ⟨d, []⟩ interrupt).1
        = .answer (some (if slot.isFinished = true then .error (.notRunning t.job) else .ok .done)) := by
    intro d slot there
    simp only [last, Onlooker.meet, answer_interrupt there, Issued.poll]
  obtain ⟨mine, there, ended⟩ := h.ends_next posted found
  obtain ⟨other, fresh, unfinished⟩ := restart_play_flight valid c t.execution
  refine ⟨(flight t.job t.execution).map .tick ++ [interrupt], fun same => ?_⟩
  rw [notices_ticks, notices_ticks, told there, told fresh] at same
  have answers := congrArg List.getLast? same
  simp [RunSlot.isFinished, Option.isSome_iff_ne_none, ended, unfinished] at answers

/-- What there is when the only execution has ended. -/
lemma closed_alone {a : Accumulators}
    (found : c.findTask 0 = some ⟨0, "a", false, .working (.finish (.ok ()))⟩)
    (own : c.slots.find? "a" = some ⟨0, false, none, a⟩) (stored : c.Stores "a" (openRecord "a" (0 : UInt64).toNat))
    (tasks : c.tasks = [⟨0, "a", false, .working (.finish (.ok ()))⟩])
    (others : ∀ key, "a" ≠ key → c.slots.find? key = none) :
    let d := c.play (closingTicks 0 0)
    (∀ job slot, d.slots.find? job = some slot → slot.isFinished = true) ∧ d.tasks = []
      ∧ d.slots.find? "a" = some ⟨0, false, some .completed, a⟩ := by
  have slots := play_closing_find? found rfl own rfl rfl stored 0
  have resolved : c.react (.resolve 0) = _ := resolved_finished found rfl own rfl rfl
  have again := c.findTask_replaceTask (u := ⟨0, "a", false, .resolved (some (.ok ()))⟩) found rfl
  refine ⟨fun job slot here => ?_, ?_, (slots "a").trans (if_pos rfl)⟩
  · rw [slots] at here
    split_ifs at here with same
    · obtain rfl := Option.some.inj here
      rfl
    · simp [others job same] at here
  · rw [closingTicks, play_cons, resolved]
    refine (react_publish_own again rfl own stored (openRecord_sound "a" 0) (le_refl 3) 0).1.trans ?_
    rw [replaceTask, tasks]
    rfl

end Cluster

/-! ## The statement -/

namespace World

/-- **When a restart is not seen.**  Take any run from an empty store.  Whatever is called and happens later,
the cluster over the same store shows the same, if and only if every execution in a slot has an outcome and no
task is in flight.  The second does not follow from the first: a task that has resolved is left when its job
is destroyed. -/
theorem restart_unseen_iff (executor : Executor) (turns : List Turn) :
    let c := ((World.start executor).run turns).cluster
    (∀ events, c.restart.notices events = c.notices events)
      ↔ (∀ job slot, c.slots.find? job = some slot → slot.isFinished = true) ∧ c.tasks = [] := by
  intro c
  have attended : c.Attended := ((Orderly.start executor).run turns).attended
  have posted : c.Posted := posted_run executor turns
  constructor
  · intro unseen
    refine ⟨fun job slot found => ?_, ?_⟩
    · have counts : c.restart.activeJobs = c.activeJobs := by
        simpa [Cluster.notices, Onlooker.notices, Onlooker.meet] using unseen [.active]
      exact Cluster.finished_of_active (counts.symm.trans rfl) found
    · by_contra busy
      obtain ⟨events, differ⟩ := attended.seen_of_task posted busy
      exact differ (unseen events)
  · rintro ⟨quiet, idle⟩ events
    have echoes : Cluster.Echoes c.nextExecution c c.restart := by
      refine ⟨rfl, rfl, rfl, le_rfl, idle.symm, by simp [idle], by simp [idle], fun job => ?_,
        fun e late => ?_, fun job e late => ?_⟩
      · cases found : c.slots.find? job with
        | none => exact .same (by simp)
        | some slot => exact .past (posted.numbered.slots found) (quiet job slot found)
      · refine (List.lookup_eq_none_iff.mpr fun p member => ?_).symm
        have := posted.numbered.published p member
        simpa using show e ≠ p.1 by omega
      · refine iff_of_false (by simp [Cluster.restart]) fun found => ?_
        exact absurd (posted.latest found) (by omega)
    exact Onlooker.Echoes.notices ⟨attended, posted, echoes, .nil⟩ events

/-- An execution has ended, and then somebody waits for it and somebody would interrupt it. -/
theorem ended_execution_restarted :
    let c := ((World.start (setting (.long 1))).run
      (openingTurns "a" 0 ++ (Cluster.closingTicks 0 0).map .tick)).cluster
    let await : Event := .call ⟨"a", .await, 0, trivial⟩ (by simp)
    let interrupt : Event := .call ⟨"a", .interrupt, 0, trivial⟩ (by simp)
    (∀ job slot, c.slots.find? job = some slot → slot.isFinished = true) ∧ c.tasks = []
      ∧ (c.slots.find? "a").isSome = true
      ∧ c.restart.notices [await, interrupt]
        = [.answer (some (.ok (.outcome .completed))), .answer (some (.error (.notRunning "a")))] := by
  have unseen := restart_unseen_iff (setting (.long 1)) (openingTurns "a" 0 ++ (Cluster.closingTicks 0 0).map .tick)
  have posted := posted_run (setting (.long 1)) (openingTurns "a" 0 ++ (Cluster.closingTicks 0 0).map .tick)
  obtain ⟨task, own, running⟩ := run_opening_setting (.long 1)
  obtain ⟨tasks, others⟩ := run_opening_setting_only (.long 1)
  have ended := Cluster.closed_alone task own running tasks others
  rw [run_append, run_ticks] at unseen posted ⊢
  generalize Cluster.play _ (Cluster.closingTicks 0 0) = d at unseen posted ended ⊢
  obtain ⟨quiet, idle, here⟩ := ended
  exact ⟨quiet, idle, by rw [here]; rfl,
    (unseen.mpr ⟨quiet, idle⟩ _).trans (Cluster.notices_ended here rfl (posted.posted here) 0)⟩

/-- **A restart that is seen** although every execution in a slot has an outcome: there is no slot at all, but
the task of a destroyed job has not published yet. -/
theorem restart_seen_without_slots :
    ¬∀ (executor : Executor) (turns : List Turn),
      let c := ((World.start executor).run turns).cluster
      (∀ job slot, c.slots.find? job = some slot → slot.isFinished = true) →
      ∀ events, c.restart.notices events = c.notices events := by
  intro unseen
  obtain ⟨tasks, free, -⟩ := Cluster.play_firstLife
  have attended := (Cluster.Attended.start (setting (.long 1))).play Cluster.firstLife
  have posted := posted_run (setting (.long 1)) (Cluster.firstLife.map .tick)
  have here := unseen (setting (.long 1)) (Cluster.firstLife.map .tick)
  rw [run_ticks, World.start] at posted here
  generalize (Cluster.ofStore .empty (setting (.long 1))).play Cluster.firstLife = c
    at tasks free attended posted here
  obtain ⟨events, differ⟩ := attended.seen_of_task posted (by simp [tasks])
  exact differ (here (fun job slot found => by simp [free] at found) events)

end World

end ControlPlane
