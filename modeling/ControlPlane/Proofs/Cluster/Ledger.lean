import Mathlib
import ControlPlane.Proofs.Cluster.Rounds

/-!
# The ledger of executions

The outcome of an execution stands in three places: among the published outcomes, where those who
wait look; in the run slot; and in the record.  This module keeps a *ledger* of all executions, which
is read off the history alone, and shows that the three places tell what the ledger tells.

* `Ledger`, `ledger` — the executions in the order of their numbers: how the work of each will end,
  whether an interrupt has been acknowledged for it, and its outcome.
* `Ledger.Agrees` — the invariant: slots, tasks, records and published outcomes against the ledger.
  Launches, interrupts, removals and publications each have a lemma that says that they keep it.
* `Ledger.Extends` — an outcome in the ledger stays there.
* `World.Admits`, `World.Told.step` — what a step that is no publication must satisfy, and that it
  then keeps the invariant; a publication keeps it only as a whole (`Ledger.Agrees.polls`).
* `World.Told.round`, `World.Told.rounds` — hence rounds keep it.
-/

namespace ControlPlane

/-! ## The ledger -/

/-- What the history tells about one execution. -/
structure Execution where
  job : String
  /-- How the future of the executor resolves. -/
  ending : WorkResult
  /-- Whether an interrupt has been acknowledged. -/
  interrupted : Bool
  /-- What has been published. -/
  outcome : Option Job.Outcome

/-- All executions by their numbers, and those to which the registered jobs have come. -/
structure Ledger where
  executions : List Execution
  current : Table ℕ

namespace Ledger

/-- A change to the current execution of a job. -/
def amend (l : Ledger) (job : String) (f : Execution → Execution) : Ledger :=
  match l.current.find? job with
  | some e => { l with executions := l.executions.modify e f }
  | none => l

/-- The ledger after one more step. -/
def step (l : Ledger) (s : Step) : Ledger :=
  match s.action with
  | .launch context =>
    { executions :=
        l.executions ++ [⟨context.job, (s.before.executor context).work.ending, false, none⟩]
      current := l.current.insert context.job l.executions.length }
  | .requestInterrupt job => l.amend job fun x => { x with interrupted := true }
  | .setOutcome job outcome => l.amend job fun x => { x with outcome := some outcome }
  | .purge job => { l with current := l.current.erase job }
  | _ => l

variable (l : Ledger)

@[simp] lemma amend_current (job : String) (f : Execution → Execution) :
    (l.amend job f).current = l.current := by
  unfold amend
  cases l.current.find? job <;> rfl

@[simp] lemma amend_length (job : String) (f : Execution → Execution) :
    (l.amend job f).executions.length = l.executions.length := by
  unfold amend
  cases l.current.find? job <;> simp

/-- An execution after an amendment, which has concerned it or not. -/
lemma amend_get (job : String) (f : Execution → Execution) (e : ℕ) :
    (l.amend job f).executions[e]?
      = l.executions[e]?.map fun x => if l.current.find? job = some e then f x else x := by
  unfold amend
  cases current : l.current.find? job with
  | none => simp
  | some i => simp [List.getElem?_modify]

end Ledger

/-- **The ledger of a history.** -/
def ledger (past : List Step) : Ledger := past.foldl Ledger.step ⟨[], .empty⟩

lemma ledger_append (past taken : List Step) :
    ledger (past ++ taken) = taken.foldl Ledger.step (ledger past) :=
  List.foldl_append

/-! ## The invariant -/

namespace Ledger

/-- **Slots, tasks, records and published outcomes tell what the ledger tells.** -/
structure Agrees (l : Ledger) (c : Cluster) : Prop where
  count : l.executions.length = c.nextExecution
  slots : ∀ {job slot}, c.slots.find? job = some slot → l.current.find? job = some slot.execution ∧
    ∃ x, l.executions[slot.execution]? = some x ∧ x.interrupted = slot.interrupted
      ∧ x.outcome = slot.outcome
  seen : ∀ {job slot}, c.slots.find? job = some slot →
    c.published.lookup slot.execution = slot.outcome
  tasks : ∀ t ∈ c.tasks, ∀ work, t.phase = .working work →
    ∃ x, l.executions[t.execution]? = some x ∧ x.ending = work.ending
  published : ∀ {e outcome}, c.published.lookup e = some outcome →
    ∃ x, l.executions[e]? = some x ∧ x.outcome = some outcome
  records : ∀ {job e}, l.current.find? job = some e → ∃ x r, l.executions[e]? = some x
    ∧ x.job = job ∧ c.Stores job r ∧ r.Tells x.outcome
  others : ∀ {job r}, l.current.find? job = none → c.Stores job r → r.status.isFinished = false
  outcomes : ∀ {e : ℕ} {x : Execution} {outcome}, l.executions[e]? = some x →
    x.outcome = some outcome →
    outcome = Operation.outcomeOf x.interrupted (some x.ending)

namespace Agrees

variable {l : Ledger} {c d : Cluster} {job : String}

lemma lt_next (h : l.Agrees c) {e : ℕ} {x : Execution} (found : l.executions[e]? = some x) :
    e < c.nextExecution := by
  rw [← h.count]
  exact (List.getElem?_eq_some_iff.mp found).1

/-- A job that has not been started has no current execution. -/
lemma idle_of_rank (h : l.Agrees c) {r : Record} (stored : c.Stores job r)
    (early : r.status.rank < 3) : l.current.find? job = none := by
  cases current : l.current.find? job with
  | none => rfl
  | some e =>
      obtain ⟨x, s, -, -, stored', tells⟩ := h.records current
      rw [stored.unique stored'] at early
      exact absurd early (not_lt.mpr tells.rank)

lemma idle_of_lacks (h : l.Agrees c) (missing : c.Lacks job) : l.current.find? job = none := by
  cases current : l.current.find? job with
  | none => rfl
  | some e =>
      obtain ⟨x, s, -, -, stored, -⟩ := h.records current
      exact absurd stored missing.not_stores

/-- Two jobs have not the same current execution. -/
lemma current_inj (h : l.Agrees c) {key : String} {e : ℕ} (first : l.current.find? job = some e)
    (second : l.current.find? key = some e) : job = key := by
  obtain ⟨x, -, found, rfl, -⟩ := h.records first
  obtain ⟨y, -, found', rfl, -⟩ := h.records second
  rw [found] at found'
  rw [Option.some.inj found']

/-- A cluster with less in it, and nothing new. -/
lemma of_less (h : l.Agrees c) (next : d.nextExecution = c.nextExecution)
    (slots : ∀ key slot, d.slots.find? key = some slot → ∃ old, c.slots.find? key = some old
      ∧ slot.execution = old.execution ∧ slot.interrupted = old.interrupted
      ∧ slot.outcome = old.outcome)
    (tasks : ∀ t ∈ d.tasks, ∀ work, t.phase = .working work → ∃ u ∈ c.tasks, ∃ work',
      u.phase = .working work' ∧ t.execution = u.execution ∧ work.ending = work'.ending)
    (published : d.published = c.published)
    (records : ∀ key, d.store.getJob key = c.store.getJob key) : l.Agrees d where
  count := h.count.trans next.symm
  slots := by
    intro key slot found
    obtain ⟨old, before, execution, interrupted, outcome⟩ := slots key slot found
    rw [execution, interrupted, outcome]
    exact h.slots before
  seen := by
    intro key slot found
    obtain ⟨old, before, execution, -, outcome⟩ := slots key slot found
    rw [execution, outcome, published]
    exact h.seen before
  tasks := by
    intro t member work phase
    obtain ⟨u, before, work', phase', execution, ending⟩ := tasks t member work phase
    rw [execution, ending]
    exact h.tasks u before work' phase'
  published := by
    rw [published]
    exact h.published
  records := by
    intro key e current
    obtain ⟨x, r, found, name, stored, tells⟩ := h.records current
    exact ⟨x, r, found, name, (records key).trans stored, tells⟩
  others := fun current stored => h.others current ((records _).symm.trans stored)
  outcomes := h.outcomes

/-- A restart forgets slots, tasks and published outcomes. -/
lemma restart (h : l.Agrees c) : l.Agrees c.restart where
  count := h.count
  slots := by simp [Cluster.restart]
  seen := by simp [Cluster.restart]
  tasks := by simp [Cluster.restart]
  published := by simp [Cluster.restart]
  records := h.records
  others := h.others
  outcomes := h.outcomes

/-- The record of a job that has no execution is written. -/
lemma putJob (h : l.Agrees c) {s : Record} (sound : s.Sound s.name)
    (idle : l.current.find? s.name = none) (unfinished : s.status.isFinished = false) :
    l.Agrees { c with store := c.store.putJob s } where
  count := h.count
  slots := h.slots
  seen := h.seen
  tasks := h.tasks
  published := h.published
  records := by
    intro key e current
    have other : s.name ≠ key := by
      rintro rfl
      rw [idle] at current
      simp at current
    obtain ⟨x, r, found, name, stored, tells⟩ := h.records current
    exact ⟨x, r, found, name, (c.store.getJob_putJob_of_ne other).trans stored, tells⟩
  others := by
    intro key r current stored
    have record := c.store.getJob_putJob sound.fits key
    rw [Cluster.Stores, record] at stored
    split_ifs at stored
    · obtain rfl : s = r := by simpa using stored
      exact unfinished
    · exact h.others current stored
  outcomes := h.outcomes

/-- An execution is launched for a job the record of which runs. -/
lemma launch (h : l.Agrees c) {context : ExecutionContext} {r : Record}
    (stored : c.Stores context.job r)
    (running : r.status = .running) :
    (l.step ⟨c, .launch context⟩).Agrees (c.launch context) := by
  have old : ∀ {e x}, l.executions[e]? = some x →
      (l.step ⟨c, .launch context⟩).executions[e]? = some x := fun found =>
    (List.getElem?_append_left (List.getElem?_eq_some_iff.mp found).1).trans found
  have new : (l.step ⟨c, .launch context⟩).executions[c.nextExecution]?
      = some ⟨context.job, (c.executor context).work.ending, false, none⟩ := by
    rw [← h.count]
    exact List.getElem?_concat_length
  have current : ∀ key, (l.step ⟨c, .launch context⟩).current.find? key
      = if context.job = key then some c.nextExecution else l.current.find? key := by
    intro key
    simp [step, h.count]
  constructor
  case count => simp [step, h.count, Cluster.launch]
  case slots =>
    intro key slot found
    rw [Cluster.launch_find?] at found
    rw [current]
    split_ifs at found ⊢
    · obtain rfl := Option.some.inj found
      exact ⟨rfl, _, new, rfl, rfl⟩
    · obtain ⟨here, x, found, same⟩ := h.slots found
      exact ⟨here, x, old found, same⟩
  case seen =>
    intro key slot found
    rw [Cluster.launch_find?] at found
    split_ifs at found
    · obtain rfl := Option.some.inj found
      cases known : c.published.lookup c.nextExecution with
      | none => exact known
      | some outcome =>
          obtain ⟨x, found, -⟩ := h.published known
          exact absurd (h.lt_next found) (lt_irrefl _)
    · exact h.seen found
  case tasks =>
    intro t member work phase
    rcases List.mem_append.mp member with before | last
    · obtain ⟨x, found, same⟩ := h.tasks t before work phase
      exact ⟨x, old found, same⟩
    · obtain rfl := List.mem_singleton.mp last
      obtain rfl : (c.executor context).work = work := by simpa using phase
      exact ⟨_, new, rfl⟩
  case published =>
    intro e outcome known
    obtain ⟨x, found, same⟩ := h.published known
    exact ⟨x, old found, same⟩
  case records =>
    intro key e here
    rw [current] at here
    split_ifs at here with same
    · obtain rfl := Option.some.inj here
      exact ⟨_, r, new, same, same ▸ stored, running⟩
    · obtain ⟨x, s, found, rest⟩ := h.records here
      exact ⟨x, s, old found, rest⟩
  case others =>
    intro key s here
    rw [current] at here
    split_ifs at here
    exact h.others here
  case outcomes =>
    intro e x outcome found known
    rcases lt_or_ge e l.executions.length with lt | ge
    · rw [step, List.getElem?_append_left lt] at found
      exact h.outcomes found known
    · simp only [step] at found
      rw [List.getElem?_append_right ge] at found
      have := List.mem_of_getElem? found
      rw [List.mem_singleton.mp this] at known
      simp at known

/-- An interrupt is acknowledged while there is no outcome. -/
lemma requestInterrupt (h : l.Agrees c) {slot : RunSlot} (own : c.slots.find? job = some slot)
    (unfinished : slot.outcome = none) :
    (l.amend job fun x => { x with interrupted := true }).Agrees (c.requestInterrupt job) := by
  obtain ⟨current, -⟩ := h.slots own
  have amended : ∀ {e : ℕ} {x : Execution}, l.executions[e]? = some x →
      ∃ y : Execution, (l.amend job fun x => { x with interrupted := true }).executions[e]? = some y
        ∧ y.job = x.job ∧ y.ending = x.ending ∧ y.outcome = x.outcome := by
    intro e x found
    rw [Ledger.amend_get, found]
    refine ⟨_, rfl, ?_⟩
    split_ifs <;> exact ⟨rfl, rfl, rfl⟩
  have find_eq : ∀ key, (c.requestInterrupt job).slots.find? key = if job = key then
      (c.slots.find? key).map fun slot => { slot with interrupted := true }
      else c.slots.find? key := c.modifySlot_find? job _
  constructor
  case count => simp [Cluster.requestInterrupt, h.count]
  case slots =>
    intro key other found
    rw [find_eq] at found
    rw [amend_current, Ledger.amend_get]
    split_ifs at found with here
    · subst here
      obtain ⟨before, held, rfl⟩ := Option.map_eq_some_iff.mp found
      obtain ⟨current', x, known, -, outcome⟩ := h.slots held
      refine ⟨current', { x with interrupted := true }, ?_, rfl, outcome⟩
      rw [known, Option.map_some, if_pos current']
    · obtain ⟨current', x, found, same⟩ := h.slots found
      refine ⟨current', x, ?_, same⟩
      rw [found, Option.map_some, if_neg]
      exact fun clash => here (h.current_inj clash current')
  case seen =>
    intro key other found
    rw [find_eq] at found
    rw [Cluster.requestInterrupt, Cluster.modifySlot_published]
    split_ifs at found
    · obtain ⟨before, held, rfl⟩ := Option.map_eq_some_iff.mp found
      have known := h.seen held
      exact known
    · exact h.seen found
  case tasks =>
    intro t member work phase
    rw [Cluster.requestInterrupt, Cluster.modifySlot_tasks] at member
    obtain ⟨x, found, same⟩ := h.tasks t member work phase
    obtain ⟨y, found', -, ending, -⟩ := amended found
    exact ⟨y, found', ending.trans same⟩
  case published =>
    intro e outcome known
    rw [Cluster.requestInterrupt, Cluster.modifySlot_published] at known
    obtain ⟨x, found, same⟩ := h.published known
    obtain ⟨y, found', -, -, outcome⟩ := amended found
    exact ⟨y, found', outcome.trans same⟩
  case records =>
    intro key e here
    rw [amend_current] at here
    obtain ⟨x, r, found, name, stored, tells⟩ := h.records here
    obtain ⟨y, found', name', -, outcome⟩ := amended found
    refine ⟨y, r, found', name'.trans name, ?_, outcome ▸ tells⟩
    rw [Cluster.Stores, Cluster.requestInterrupt, Cluster.modifySlot_store]
    exact stored
  case others =>
    intro key r here stored
    rw [amend_current] at here
    rw [Cluster.Stores, Cluster.requestInterrupt, Cluster.modifySlot_store] at stored
    exact h.others here stored
  case outcomes =>
    intro e y outcome found known
    rw [Ledger.amend_get] at found
    obtain ⟨x, held, rfl⟩ := Option.map_eq_some_iff.mp found
    split_ifs at known ⊢ with here
    · -- The execution that is amended is the one in the slot, and it has no outcome.
      obtain rfl : slot.execution = e := Option.some.inj (current.symm.trans here)
      obtain ⟨-, z, held', -, same⟩ := h.slots own
      obtain rfl := Option.some.inj (held.symm.trans held')
      rw [show x.outcome = some outcome from known, unfinished] at same
      simp at same
    · exact h.outcomes held known

/-- A job goes that has no slot. -/
lemma purge (h : l.Agrees c) (free : c.slots.find? job = none) :
    (l.step ⟨c, .purge job⟩).Agrees (Action.perform c (.purge job)).2 where
  count := h.count
  slots := by
    intro key slot found
    have other : key ≠ job := by
      rintro rfl
      rw [show c.slots.find? key = some slot from found] at free
      simp at free
    obtain ⟨current, known⟩ := h.slots found
    exact ⟨by simp [step, other, current], known⟩
  seen := h.seen
  tasks := h.tasks
  published := h.published
  records := by
    intro key e current
    have other : key ≠ job := by
      rintro rfl
      simp [step] at current
    obtain ⟨x, r, found, name, stored, tells⟩ := h.records (by simpa [step, other] using current)
    exact ⟨x, r, found, name, ((c.store.getJob_purge job key).trans (if_neg other)).trans stored,
      tells⟩
  others := by
    intro key r current stored
    have record := c.store.getJob_purge job key
    rw [Cluster.Stores, show (Action.perform c (.purge job)).2.store = (c.store.purge job).2 from rfl,
      record] at stored
    split_ifs at stored with other
    · simp at stored
    · exact h.others (by simpa [step, other] using current) stored
  outcomes := h.outcomes

/-- **A publication** writes the same outcome in all three places. -/
lemma publish (h : l.Agrees c) {slot : RunSlot} (ended : RunSlot) (r : Record)
    (outcome : Job.Outcome) (own : c.slots.find? job = some slot)
    (execution : ended.execution = slot.execution) (flag : ended.interrupted = slot.interrupted)
    (shown : ended.outcome = some outcome) (tells : r.Tells (some outcome))
    (right : ∀ x, l.executions[slot.execution]? = some x →
      outcome = Operation.outcomeOf x.interrupted (some x.ending))
    (slots : ∀ key, d.slots.find? key = if job = key then some ended else c.slots.find? key)
    (records : ∀ key, d.store.getJob key = if job = key then .ok (some r) else c.store.getJob key)
    (tasks : ∀ t ∈ d.tasks, t ∈ c.tasks) (next : d.nextExecution = c.nextExecution)
    (published : d.published = (slot.execution, outcome) :: c.published) :
    (l.amend job fun x => { x with outcome := some outcome }).Agrees d := by
  obtain ⟨current, x, found, interrupted, -⟩ := h.slots own
  have amended : (l.amend job fun x => { x with outcome := some outcome }).executions[slot.execution]?
      = some { x with outcome := some outcome } := by
    rw [Ledger.amend_get, found, Option.map_some, if_pos current]
  -- Whatever has another number is not concerned.
  have kept : ∀ {e}, slot.execution ≠ e →
      (l.amend job fun x => { x with outcome := some outcome }).executions[e]? = l.executions[e]? := by
    intro e other
    have idle : l.current.find? job ≠ some e := by simpa [current] using other
    simp [Ledger.amend_get, idle]
  have apart : ∀ {key e}, job ≠ key → l.current.find? key = some e → slot.execution ≠ e := by
    rintro key e other here rfl
    exact other (h.current_inj current here)
  constructor
  case count => rw [amend_length, h.count, next]
  case slots =>
    intro key other found'
    rw [slots] at found'
    rw [amend_current]
    split_ifs at found' with here
    · obtain rfl := Option.some.inj found'
      rw [execution, flag, shown]
      exact ⟨here ▸ current, _, amended, interrupted, rfl⟩
    · obtain ⟨current', known⟩ := h.slots found'
      rw [kept (apart here current')]
      exact ⟨current', known⟩
  case seen =>
    intro key other found'
    rw [slots] at found'
    rw [published, List.lookup_cons]
    split_ifs at found' with here
    · obtain rfl := Option.some.inj found'
      simp [execution, shown]
    · obtain ⟨current', -⟩ := h.slots found'
      rw [beq_false_of_ne (apart here current').symm]
      exact h.seen found'
  case tasks =>
    intro t member work phase
    obtain ⟨y, found', same⟩ := h.tasks t (tasks t member) work phase
    rw [Ledger.amend_get, found', Option.map_some]
    refine ⟨_, rfl, ?_⟩
    split_ifs <;> exact same
  case published =>
    intro e outcome' known
    rw [published, List.lookup_cons] at known
    by_cases same : e = slot.execution
    · subst same
      obtain rfl : outcome = outcome' := by simpa using known
      exact ⟨_, amended, rfl⟩
    · rw [beq_false_of_ne same] at known
      rw [kept (Ne.symm same)]
      exact h.published known
  case records =>
    intro key e here
    rw [amend_current] at here
    by_cases same : job = key
    · subst same
      obtain rfl : slot.execution = e := Option.some.inj (current.symm.trans here)
      obtain ⟨y, s, found', name, -⟩ := h.records here
      obtain rfl := Option.some.inj (found.symm.trans found')
      exact ⟨_, r, amended, name, (records job).trans (if_pos rfl), tells⟩
    · obtain ⟨y, s, found', name, stored, tells⟩ := h.records here
      rw [kept (apart same here)]
      exact ⟨y, s, found', name, ((records key).trans (if_neg same)).trans stored, tells⟩
  case others =>
    intro key s here stored
    rw [amend_current] at here
    have other : job ≠ key := by
      rintro rfl
      rw [current] at here
      simp at here
    rw [Cluster.Stores, records, if_neg other] at stored
    exact h.others here stored
  case outcomes =>
    intro e y outcome' found' known
    by_cases same : slot.execution = e
    · subst same
      rw [amended] at found'
      obtain rfl := Option.some.inj found'
      obtain rfl : outcome = outcome' := by simpa using known
      exact right x found
    · rw [kept same] at found'
      exact h.outcomes found' known

end Agrees

/-! ## Later ledgers -/

/-- **A later ledger**: no execution is forgotten, and one that has an outcome stays as it is. -/
structure Extends (l m : Ledger) : Prop where
  kept : ∀ {e : ℕ} {x : Execution}, l.executions[e]? = some x →
    ∃ y, m.executions[e]? = some y ∧ (x.outcome = none ∨ y = x)

namespace Extends

variable {l m n : Ledger}

lemma of_same (same : m.executions = l.executions) : l.Extends m where
  kept := fun {_ x} found => ⟨x, by rw [same, found], .inr rfl⟩

lemma trans (first : l.Extends m) (second : m.Extends n) : l.Extends n where
  kept := by
    intro e x found
    obtain ⟨y, found, open_or_same⟩ := first.kept found
    obtain ⟨z, found, open_or_same'⟩ := second.kept found
    refine ⟨z, found, ?_⟩
    rcases open_or_same with unfinished | rfl
    · exact .inl unfinished
    · exact open_or_same'

/-- An outcome stays for ever. -/
lemma outcome (h : l.Extends m) {e : ℕ} {x : Execution} {outcome : Job.Outcome}
    (found : l.executions[e]? = some x) (known : x.outcome = some outcome) :
    ∃ y, m.executions[e]? = some y ∧ y.outcome = some outcome := by
  obtain ⟨y, found', unfinished | rfl⟩ := h.kept found
  · rw [unfinished] at known
    simp at known
  · exact ⟨y, found', known⟩

/-- The current execution of a job is amended while it has no outcome. -/
lemma amend {job : String} (f : Execution → Execution)
    (unfinished : ∀ {e x}, l.current.find? job = some e → l.executions[e]? = some x →
      x.outcome = none) : l.Extends (l.amend job f) where
  kept := by
    intro e x found
    rw [Ledger.amend_get, found, Option.map_some]
    refine ⟨_, rfl, ?_⟩
    split_ifs with here
    · exact .inl (unfinished here found)
    · exact .inr rfl

end Extends

/-- The execution in a slot without an outcome has none. -/
lemma Agrees.unfinished {l : Ledger} {c : Cluster} (h : l.Agrees c) {job : String} {slot : RunSlot}
    (own : c.slots.find? job = some slot) (none_yet : slot.outcome = none) {e : ℕ} {x : Execution}
    (current : l.current.find? job = some e) (found : l.executions[e]? = some x) :
    x.outcome = none := by
  obtain ⟨current', y, found', -, same⟩ := h.slots own
  obtain rfl := Option.some.inj (current'.symm.trans current)
  obtain rfl := Option.some.inj (found.symm.trans found')
  rw [same, none_yet]

end Ledger

/-! ## Steps -/

namespace World

variable {w : World}

/-- The ledger of a world. -/
def ledger (w : World) : Ledger := ControlPlane.ledger w.past

lemma ledger_perform (actions : List Action) :
    (w.perform actions).ledger = (w.cluster.steps actions).foldl Ledger.step w.ledger :=
  ledger_append ..

/-- The ledger tells what the cluster tells. -/
def Told (w : World) : Prop := w.ledger.Agrees w.cluster

/-- What a step must satisfy that is no publication. -/
def Admits (w : World) : Action → Prop
  | .putJob s => s.Sound s.name ∧ w.ledger.current.find? s.name = none ∧ s.status.isFinished = false
  | .launch context => ∃ r, w.cluster.Stores context.job r ∧ r.status = .running
  | .requestInterrupt job => ∃ slot, w.cluster.slots.find? job = some slot ∧ slot.outcome = none
  | .purge job => w.cluster.slots.find? job = none
  | .setOutcome _ _ => False
  | _ => True

/-- An admitted step keeps the invariant. -/
theorem Told.step (h : w.Told) {a : Action} (admitted : w.Admits a) :
    (w.perform [a]).Told ∧ w.ledger.Extends (w.perform [a]).ledger := by
  rw [Told, ledger_perform]
  have quiet : w.ledger.Agrees (Action.perform w.cluster a).2 →
      w.ledger.Agrees (Action.perform w.cluster a).2 ∧ w.ledger.Extends w.ledger := fun agrees =>
    ⟨agrees, .of_same rfl⟩
  cases a with
  | putJob s =>
      obtain ⟨sound, idle, unfinished⟩ := admitted
      exact quiet (Ledger.Agrees.putJob h sound idle unfinished)
  | launch context =>
      obtain ⟨r, stored, running⟩ := admitted
      refine ⟨Ledger.Agrees.launch h stored running, ⟨fun {e x} found => ⟨x, ?_, .inr rfl⟩⟩⟩
      exact (List.getElem?_append_left (List.getElem?_eq_some_iff.mp found).1).trans found
  | requestInterrupt job =>
      obtain ⟨slot, own, unfinished⟩ := admitted
      exact ⟨Ledger.Agrees.requestInterrupt h own unfinished,
        .amend _ (Ledger.Agrees.unfinished h own unfinished)⟩
  | purge job => exact ⟨Ledger.Agrees.purge h admitted, .of_same rfl⟩
  | setOutcome job outcome => exact admitted.elim
  | removeSlot job =>
      refine quiet (Ledger.Agrees.of_less h ?_ ?_ ?_ ?_ fun key => ?_)
      · exact Cluster.removeSlot_nextExecution ..
      · intro key slot found
        have erased := Cluster.removeSlot_find? w.cluster job key
        rw [show (Action.perform w.cluster (.removeSlot job)).2 = w.cluster.removeSlot job from rfl,
          erased] at found
        split_ifs at found
        exact ⟨slot, found, rfl, rfl, rfl⟩
      · intro t member work phase
        rw [Action.perform_tasks] at member
        simp only [Cluster.removeSlot] at member
        refine ⟨t, ?_, work, phase, rfl, rfl⟩
        cases found : w.cluster.slots.find? job with
        | none =>
            rw [found] at member
            exact member
        | some slot =>
            rw [found] at member
            exact List.mem_of_mem_filter member
      · exact Cluster.removeSlot_published ..
      · exact Action.perform_getJob _ _ (by simp) key
  | putResources key rs | putGraph key g | putAccumulators key counters | getJob key | listJobs
  | getResource key name | listResources key | getGraph key | getAccumulators key | findSlot key =>
      refine quiet (Ledger.Agrees.of_less h rfl ?_ ?_ rfl fun key => ?_)
      · exact fun key slot found => ⟨slot, found, rfl, rfl, rfl⟩
      · exact fun t member work phase => ⟨t, member, work, phase, rfl, rfl⟩
      · exact Action.perform_getJob _ _ (by simp) key

lemma Told.perform (h : w.Told) {actions : List Action} (obeys : Obeys Admits w actions) :
    (w.perform actions).Told ∧ w.ledger.Extends (w.perform actions).ledger := by
  have step : ∀ {v : World} {a}, v.Told ∧ w.ledger.Extends v.ledger → v.Admits a →
      (v.perform [a]).Told ∧ w.ledger.Extends (v.perform [a]).ledger := by
    rintro v a ⟨told, later⟩ admitted
    obtain ⟨told', later'⟩ := told.step admitted
    exact ⟨told', later.trans later'⟩
  exact obeys.keeps step ⟨h, .of_same rfl⟩

/-- Calls take no other steps. -/
theorem Told.effect (h : w.Told) (sound : w.cluster.Sound) {job : String} {call : Call}
    {actions : List Action} (effect : w.cluster.Effect job call actions) :
    Obeys Admits w actions := by
  -- The record of a job that is not started is written once more.
  have write : ∀ {v : World} {r s : Record}, v.ledger = w.ledger → w.cluster.Stores job r →
      r.status.rank < 3 → s.Sound job → s.status.isFinished = false → v.Admits (.putJob s) := by
    intro v r s same stored early sound unfinished
    obtain rfl := sound.name
    refine ⟨sound, ?_, unfinished⟩
    rw [same]
    exact Ledger.Agrees.idle_of_rank h stored early
  cases effect with
  | nothing => exact .nil
  | @create config missing fits now =>
      exact .cons ⟨.ofNew fits now, Ledger.Agrees.idle_of_lacks h missing, rfl⟩ .nil
  | @configure r config stored status fits now =>
      have early : r.status.rank < 3 := by simp [status, JobStatus.rank]
      exact .cons (write rfl stored early ((sound.record stored).configure fits now)
        (by simp [status, JobStatus.isFinished])) .nil
  | @deploy r valid stored status rs now =>
      have early : r.status.rank < 3 := by
        rcases status with status | status <;> simp [status, JobStatus.rank]
      exact .cons trivial (.cons (write (ledger_perform _) stored early
        ((sound.record stored).advance .deployed early (by decide) now) rfl) .nil)
  | @submit r stored status graph now =>
      have early : r.status.rank < 3 := by simp [status, JobStatus.rank]
      exact .cons trivial (.cons (write (ledger_perform _) stored early
        ((sound.record stored).advance .submitted early (by decide) now) rfl) .nil)
  | @start r stored status fresh graph resources now =>
      have early : r.status.rank < 3 := by simp [status, JobStatus.rank]
      have started := (sound.record stored).start status now
      have recorded := (stores_putJob (w := w) started.fits job).trans (if_pos started.name)
      exact .cons (write rfl stored early started rfl) (.cons ⟨_, recorded, rfl⟩ .nil)
  | interrupt found unfinished => exact .cons ⟨_, found, unfinished⟩ .nil
  | destroy valid =>
      refine .cons trivial (.cons ?_ .nil)
      exact (Cluster.removeSlot_find? w.cluster job job).trans (if_pos rfl)

end World

/-! ## Polls -/

namespace Ledger.Agrees

variable {l : Ledger} {c d : Cluster}

/-- A cluster in which only counters, gates and the work of tasks have changed. -/
lemma replaceTask (h : l.Agrees c) {t : RunTask} {work rest : Work} (member : t ∈ c.tasks)
    (phase : t.phase = .working work) (same : rest.ending = work.ending) (a : Accumulators) :
    l.Agrees ((c.putCounters t a).replaceTask { t with phase := .working rest }) := by
  refine h.of_less (c.putCounters_nextExecution t a) ?_ ?_ (c.putCounters_published t a) ?_
  · intro key slot found
    rw [Cluster.replaceTask_slots, Cluster.putCounters_eq_modifySlot, Cluster.modifySlot_find?]
      at found
    split_ifs at found
    · obtain ⟨before, held, rfl⟩ := Option.map_eq_some_iff.mp found
      refine ⟨before, held, ?_⟩
      split_ifs <;> exact ⟨rfl, rfl, rfl⟩
    · exact ⟨slot, found, rfl, rfl, rfl⟩
  · intro u member' work' phase'
    obtain ⟨v, before, rfl⟩ := List.mem_map.mp member'
    rw [Cluster.putCounters_tasks] at before
    split_ifs at phase' ⊢
    · obtain rfl : rest = work' := by simpa using phase'
      exact ⟨t, member, work, phase, rfl, same⟩
    · exact ⟨v, before, work', phase', rfl, rfl⟩
  · intro key
    exact congrArg (fun s : Store => s.getJob key) (c.putCounters_store t a)

/-- **A poll keeps the invariant**, and publishes the outcome of an execution that had none. -/
theorem polls (h : l.Agrees c) (sound : c.Sound) {execution : ℕ} {now : UInt64}
    {steps : List Action} (polls : c.Polls execution now.toNat steps d) (b : Cluster) :
    ((b.steps steps).foldl Ledger.step l).Agrees d
      ∧ l.Extends ((b.steps steps).foldl Ledger.step l) := by
  cases polls with
  | idle missing => exact ⟨h, .of_same rfl⟩
  | @stands t work rest found phase same a =>
      exact ⟨h.replaceTask (List.mem_of_find?_eq_some found) phase same a, .of_same rfl⟩
  | @publishes t work slot r found phase own same unfinished stored running outcome eq a =>
      obtain rfl := Cluster.findTask_execution found
      have ended := (sound.record stored).finish (by simp [running, JobStatus.rank]) outcome now
      refine ⟨h.publish { slot with accumulators := a, outcome := some outcome }
        (r.finish outcome now.toNat) outcome own rfl rfl rfl ⟨rfl, rfl⟩ ?_ ?_ ?_ ?_ ?_ ?_,
        .amend _ (h.unfinished own unfinished)⟩
      · -- The ledger knows how the work ends, and whether the slot has been interrupted.
        intro x known
        obtain ⟨-, y, known', flag, -⟩ := h.slots own
        obtain rfl := Option.some.inj (known.symm.trans known')
        obtain ⟨z, known'', ending⟩ := h.tasks t (List.mem_of_find?_eq_some found) work phase
        rw [← same, known] at known''
        obtain rfl := Option.some.inj known''
        rw [flag, ending, eq]
      · exact Cluster.publishedBy_find? outcome a now.toNat r own same
      · exact Cluster.publishedBy_getJob outcome a now.toNat ended
      · exact fun u member => List.mem_of_mem_filter member
      · exact Cluster.publishedBy_nextExecution outcome a now.toNat r
      · exact Cluster.publishedBy_published outcome a now.toNat r own same

/-- Counters have nothing to do with outcomes. -/
lemma writeSink (h : l.Agrees c) (execution : ℕ) (w : SinkWrite) :
    l.Agrees (c.writeSink execution w) := by
  refine h.of_less rfl (fun key slot found => ?_)
    (fun t member work phase => ⟨t, member, work, phase, rfl, rfl⟩) rfl fun key => rfl
  rw [Cluster.writeSink_find?] at found
  obtain ⟨before, held, rfl⟩ := Option.map_eq_some_iff.mp found
  refine ⟨before, held, ?_⟩
  split_ifs <;> exact ⟨rfl, rfl, rfl⟩

/-- Gates have nothing to do with outcomes. -/
lemma openGate (h : l.Agrees c) (job : String) : l.Agrees (c.openGate job).2 := by
  rcases found : c.latest.find? job with _ | execution
  · simp only [Cluster.openGate, found]
    exact h
  · simp only [Cluster.openGate, found]
    refine h.of_less rfl (fun key slot found => ⟨slot, found, rfl, rfl, rfl⟩) ?_ rfl fun key => rfl
    intro t member work phase
    obtain ⟨u, before, rfl⟩ := List.mem_map.mp member
    split_ifs at phase ⊢
    · exact ⟨u, before, work, phase, rfl, rfl⟩
    · exact ⟨u, before, work, phase, rfl, rfl⟩

end Ledger.Agrees

/-! ## Rounds -/

namespace World

variable {w : World}

/-- **One round** keeps the invariant, and no outcome changes. -/
theorem Told.round (h : w.Told) (calm : w.Calm) (r : Round) :
    (w.round r).Told ∧ w.ledger.Extends (w.round r).ledger := by
  have sound := calm.lawful.sound
  -- Nothing is written that the ledger knows, and no step is taken.
  have quiet : ∀ {v : World}, v.past = w.past → w.ledger.Agrees v.cluster →
      v.Told ∧ w.ledger.Extends v.ledger := by
    intro v past agrees
    rw [Told, World.ledger, past]
    exact ⟨agrees, .of_same rfl⟩
  cases r with
  | call q =>
      rw [round_call]
      exact h.perform (h.effect sound (q.effect w.cluster))
  | cut q n =>
      have obeys := (h.effect sound (q.effect w.cluster)).take n
      obtain ⟨told, later⟩ := h.perform obeys
      exact ⟨Ledger.Agrees.restart told, later⟩
  | poll execution now =>
      have agrees := Ledger.Agrees.polls h sound (calm.settled.polls execution now)
        (w.cluster.resolved execution)
      rw [World.ledger, ← ledger_append] at agrees
      rw [round_poll]
      exact agrees
  | write execution k => exact quiet (List.append_nil _) (Ledger.Agrees.writeSink h execution k)
  | openGate job => exact quiet (List.append_nil _) (Ledger.Agrees.openGate h job)
  | restart => exact quiet (List.append_nil _) (Ledger.Agrees.restart h)
  | exchange executor =>
      exact quiet (List.append_nil _)
        (Ledger.Agrees.of_less h rfl (fun key slot found => ⟨slot, found, rfl, rfl, rfl⟩)
          (fun t member work phase => ⟨t, member, work, phase, rfl, rfl⟩) rfl fun key => rfl)

theorem Told.rounds (h : w.Told) (calm : w.Calm) (rs : List Round) :
    (w.rounds rs).Told ∧ w.ledger.Extends (w.rounds rs).ledger := by
  induction rs generalizing w with
  | nil => exact ⟨h, .of_same rfl⟩
  | cons r rs ih =>
      obtain ⟨told, later⟩ := h.round calm r
      obtain ⟨told', later'⟩ := ih told (calm.round r)
      exact ⟨told', later.trans later'⟩

/-- Before anything has happened, the ledger is empty. -/
lemma Told.start (executor : Executor) : (World.start executor).Told where
  count := rfl
  slots := by simp [World.start, Cluster.ofStore]
  seen := by simp [World.start, Cluster.ofStore]
  tasks := by simp [World.start, Cluster.ofStore]
  published := by simp [World.start, Cluster.ofStore]
  records := by simp [World.start, World.ledger, ControlPlane.ledger]
  others := by
    intro job r current stored
    simp [World.start, Cluster.Stores, Cluster.ofStore, Store.getJob, Store.get, Store.empty] at stored
  outcomes := by simp [World.start, World.ledger, ControlPlane.ledger]

end World

end ControlPlane
