import Mathlib
import ControlPlane.Proofs.Cluster.Run

/-!
# What a step leaves alone

Each part of a cluster after each step, as one equation per part: a step that is not named in the
equation leaves that part alone.

* `Action.perform_jobs`, `perform_find?`, `perform_tasks`, … — a part of the cluster after a step.
* `Cluster.Stores`, `Cluster.Lacks` — what the cluster knows about the record of a job.
* `Cluster.resolveTask_eq`, `Cluster.react_publish_eq` — a task carried on as a change to one slot and one
  task; a publication as its steps, and then the end of the task.
-/

namespace ControlPlane

/-- What is in a table already can be inserted once more. -/
lemma Table.insert_of_find? {α : Type} {t : Table α} {name : String} {value : α}
    (h : t.find? name = some value) : t.insert name value = t := by
  refine Table.ext_find? fun key => ?_
  by_cases eq : name = key
  · subst eq
    simp [h]
  · simp [eq]

namespace Cluster

variable (c : Cluster)

/-! ## Slots -/

section ModifySlot

variable (job : String) (f : RunSlot → RunSlot)

@[simp] lemma modifySlot_find? (key : String) :
    (c.modifySlot job f).slots.find? key
      = if job = key then (c.slots.find? key).map f else c.slots.find? key := by
  unfold modifySlot
  by_cases h : job = key
  · subst h
    rw [if_pos rfl]
    cases slot : c.slots.find? job <;> simp [slot]
  · rw [if_neg h]
    cases slot : c.slots.find? job <;> simp [h]

/-- Only the slots change. -/
lemma modifySlot_eq : c.modifySlot job f = { c with slots := (c.modifySlot job f).slots } := by
  unfold modifySlot
  cases c.slots.find? job <;> rfl

@[simp] lemma modifySlot_store : (c.modifySlot job f).store = c.store := by
  rw [modifySlot_eq]

@[simp] lemma modifySlot_tasks : (c.modifySlot job f).tasks = c.tasks := by
  rw [modifySlot_eq]

@[simp] lemma modifySlot_nextExecution :
    (c.modifySlot job f).nextExecution = c.nextExecution := by
  rw [modifySlot_eq]

@[simp] lemma modifySlot_published : (c.modifySlot job f).published = c.published := by
  rw [modifySlot_eq]

end ModifySlot

/-- The counters of a task are written by a change to its slot. -/
lemma putCounters_eq_modifySlot (t : RunTask) (a : Accumulators) :
    c.putCounters t a = c.modifySlot t.job fun slot =>
      if slot.execution = t.execution then { slot with accumulators := a } else slot := by
  unfold putCounters modifySlot
  cases h : c.slots.find? t.job with
  | none => rfl
  | some slot =>
      simp only
      split_ifs
      · rfl
      · rw [Table.insert_of_find? h]

section PutCounters

variable (t : RunTask) (a : Accumulators)

@[simp] lemma putCounters_store : (c.putCounters t a).store = c.store := by
  rw [putCounters_eq_modifySlot, modifySlot_store]

@[simp] lemma putCounters_tasks : (c.putCounters t a).tasks = c.tasks := by
  rw [putCounters_eq_modifySlot, modifySlot_tasks]

@[simp] lemma putCounters_nextExecution :
    (c.putCounters t a).nextExecution = c.nextExecution := by
  rw [putCounters_eq_modifySlot, modifySlot_nextExecution]

@[simp] lemma putCounters_published : (c.putCounters t a).published = c.published := by
  rw [putCounters_eq_modifySlot, modifySlot_published]

end PutCounters

section WriteSink

variable (execution : ℕ) (w : SinkWrite)

lemma writeSink_find? (job : String) :
    (c.writeSink execution w).slots.find? job = (c.slots.find? job).map fun slot =>
      if slot.execution = execution then { slot with accumulators := w.apply slot.accumulators }
      else slot := by
  simp [writeSink]

@[simp] lemma writeSink_nextExecution : (c.writeSink execution w).nextExecution = c.nextExecution := rfl

@[simp] lemma writeSink_published : (c.writeSink execution w).published = c.published := rfl

end WriteSink

lemma setOutcome_eq_modifySlot (job : String) (outcome : Job.Outcome) :
    c.setOutcome job outcome
      = { c.modifySlot job fun slot => { slot with outcome := some outcome } with
          published := match c.slots.find? job with
            | some slot => (slot.execution, outcome) :: c.published
            | none => c.published } := by
  unfold setOutcome modifySlot
  cases c.slots.find? job <;> rfl

section RemoveSlot

variable (job : String)

@[simp] lemma removeSlot_find? (key : String) :
    (c.removeSlot job).slots.find? key = if job = key then none else c.slots.find? key := by
  unfold removeSlot
  cases h : c.slots.find? job with
  | none =>
      by_cases eq : job = key
      · subst eq; simp [h]
      · simp [eq]
  | some slot =>
      by_cases eq : job = key
      · simp [eq]
      · simp [eq, Ne.symm eq]

/-- Only the slots and the tasks change. -/
lemma removeSlot_eq : c.removeSlot job
    = { c with slots := (c.removeSlot job).slots, tasks := (c.removeSlot job).tasks } := by
  unfold removeSlot
  cases c.slots.find? job <;> rfl

@[simp] lemma removeSlot_store : (c.removeSlot job).store = c.store := by
  rw [removeSlot_eq]

@[simp] lemma removeSlot_nextExecution : (c.removeSlot job).nextExecution = c.nextExecution := by
  rw [removeSlot_eq]

@[simp] lemma removeSlot_published : (c.removeSlot job).published = c.published := by
  rw [removeSlot_eq]

end RemoveSlot

@[simp] lemma launch_find? (context : ExecutionContext) (key : String) :
    (c.launch context).slots.find? key
      = if context.job = key then
          some ⟨c.nextExecution, false, none, Accumulators.write .empty (c.executor context).atOnce⟩
        else c.slots.find? key := by
  simp [launch]

/-! ## Records -/

/-- The record of a job is stored and can be read. -/
def Stores (job : String) (r : Record) : Prop := c.store.getJob job = .ok (some r)

/-- No record of a job is stored. -/
def Lacks (job : String) : Prop := c.store.getJob job = .ok none

variable {c}

lemma Stores.unique {job : String} {r s : Record} (h : c.Stores job r) (h' : c.Stores job s) :
    r = s := by
  unfold Stores at h h'
  rw [h] at h'
  simpa using h'

lemma Lacks.not_stores {job : String} {r : Record} (h : c.Lacks job) : ¬c.Stores job r := by
  intro h'
  unfold Lacks Stores at *
  rw [h] at h'
  simp at h'

end Cluster

/-! ## The tables of the store -/

/-- What a step makes of the record of a job. -/
lemma Action.perform_jobs (c : Cluster) (a : Action) :
    (a.perform c).2.store.jobs = match a with
      | .putJob r => c.store.jobs.insert r.name (.of r.toJson)
      | .purge job => c.store.jobs.erase job
      | _ => c.store.jobs := by
  cases a <;> simp [perform, Store.putJob, Store.putResources, Store.putGraph,
    Store.putAccumulators, Store.purge, Cluster.launch, Cluster.requestInterrupt,
    Cluster.setOutcome_eq_modifySlot]

/-- What a step makes of the resources. -/
lemma Action.perform_resources (c : Cluster) (a : Action) :
    (a.perform c).2.store.resources = match a with
      | .putResources job rs => (c.store.putResources job rs).resources
      | .purge job => (c.store.purge job).2.resources
      | _ => c.store.resources := by
  cases a <;> simp [perform, Store.putJob, Store.putGraph, Store.putAccumulators, Cluster.launch,
    Cluster.requestInterrupt, Cluster.setOutcome_eq_modifySlot]

/-- What a step makes of the graphs. -/
lemma Action.perform_graphs (c : Cluster) (a : Action) :
    (a.perform c).2.store.graphs = match a with
      | .putGraph job g => c.store.graphs.insert job (.of g.toJson)
      | .purge job => c.store.graphs.erase job
      | _ => c.store.graphs := by
  cases a <;> simp [perform, Store.putJob, Store.putResources, Store.putGraph,
    Store.putAccumulators, Store.purge, Cluster.launch, Cluster.requestInterrupt,
    Cluster.setOutcome_eq_modifySlot]

/-- What a step makes of the counters. -/
lemma Action.perform_accumulators (c : Cluster) (a : Action) :
    (a.perform c).2.store.accumulators = match a with
      | .putAccumulators job s => c.store.accumulators.insert job (.of s.toJson)
      | .purge job => c.store.accumulators.erase job
      | _ => c.store.accumulators := by
  cases a <;> simp [perform, Store.putJob, Store.putResources, Store.putGraph,
    Store.putAccumulators, Store.purge, Cluster.launch, Cluster.requestInterrupt,
    Cluster.setOutcome_eq_modifySlot]

lemma Store.getJob_congr {s t : Store} {job : String} (h : s.jobs.find? job = t.jobs.find? job) :
    s.getJob job = t.getJob job := by
  unfold getJob get
  rw [h]

lemma Store.getGraph_congr {s t : Store} {job : String}
    (h : s.graphs.find? job = t.graphs.find? job) : s.getGraph job = t.getGraph job := by
  unfold getGraph get
  rw [h]

lemma Store.listResources_congr {s t : Store} (h : s.resources = t.resources) (job : String) :
    s.listResources job = t.listResources job := by
  unfold listResources
  rw [h]

lemma Store.getJob_putJob_of_ne (s : Store) {r : Record} {job : String} (h : r.name ≠ job) :
    (s.putJob r).getJob job = s.getJob job :=
  getJob_congr (by simp [putJob, h])

lemma Store.getJob_putJob (s : Store) {r : Record} (fits : r.Fits) (job : String) :
    (s.putJob r).getJob job = if r.name = job then .ok (some r) else s.getJob job := by
  split_ifs with h
  · subst h
    simp [getJob, get, putJob, Row.decode_record fits, Except.map]
  · exact s.getJob_putJob_of_ne h

lemma Store.getJob_purge (s : Store) (job key : String) :
    (s.purge job).2.getJob key = if key = job then .ok none else s.getJob key := by
  split_ifs with h
  · subst h
    simp [getJob, get, purge]
  · exact getJob_congr (by simp [purge, h])

/-- the record of a job after a step -/
lemma Action.perform_getJob (c : Cluster) (a : Action) (fits : ∀ r, a = .putJob r → r.Fits)
    (job : String) :
    (a.perform c).2.store.getJob job = match a with
      | .putJob r => if r.name = job then .ok (some r) else c.store.getJob job
      | .purge key => if job = key then .ok none else c.store.getJob job
      | _ => c.store.getJob job := by
  cases a
  case putJob r => exact c.store.getJob_putJob (fits r rfl) job
  case purge key => exact c.store.getJob_purge key job
  all_goals exact Store.getJob_congr (by rw [Action.perform_jobs])

/-! ## The other parts -/

namespace Action

variable (c : Cluster) (a : Action)

lemma perform_find? (job : String) :
    (a.perform c).2.slots.find? job = match a with
      | .launch context =>
        if context.job = job then
          some ⟨c.nextExecution, false, none, Accumulators.write .empty (c.executor context).atOnce⟩
        else c.slots.find? job
      | .requestInterrupt key =>
        if key = job then (c.slots.find? job).map fun slot => { slot with interrupted := true }
        else c.slots.find? job
      | .removeSlot key => if key = job then none else c.slots.find? job
      | .setOutcome key outcome =>
        if key = job then (c.slots.find? job).map fun slot => { slot with outcome := some outcome }
        else c.slots.find? job
      | _ => c.slots.find? job := by
  cases a <;> simp [perform, Cluster.requestInterrupt, Cluster.setOutcome_eq_modifySlot]

lemma perform_tasks :
    (a.perform c).2.tasks = match a with
      | .launch context => c.tasks
          ++ [⟨c.nextExecution, context.job, false, .working (c.executor context).work⟩]
      | .removeSlot job => (c.removeSlot job).tasks
      | _ => c.tasks := by
  cases a <;> simp [perform, Cluster.launch, Cluster.requestInterrupt,
    Cluster.setOutcome_eq_modifySlot]

lemma perform_nextExecution :
    (a.perform c).2.nextExecution = match a with
      | .launch _ => c.nextExecution + 1
      | _ => c.nextExecution := by
  cases a <;> simp [perform, Cluster.launch, Cluster.requestInterrupt,
    Cluster.setOutcome_eq_modifySlot]

lemma perform_published :
    (a.perform c).2.published = match a with
      | .setOutcome job outcome =>
        match c.slots.find? job with
        | some slot => (slot.execution, outcome) :: c.published
        | none => c.published
      | _ => c.published := by
  cases a <;> simp [perform, Cluster.launch, Cluster.requestInterrupt,
    Cluster.setOutcome_eq_modifySlot]

@[simp] lemma perform_executor : (a.perform c).2.executor = c.executor := by
  cases a <;> simp [perform, Cluster.launch, Cluster.requestInterrupt, Cluster.modifySlot,
    Cluster.removeSlot, Cluster.setOutcome] <;> split <;> rfl

end Action

@[simp] lemma Cluster.after_executor (c : Cluster) (actions : List Action) :
    (c.after actions).executor = c.executor := by
  induction actions generalizing c with
  | nil => rfl
  | cons a rest ih => rw [after_cons, ih, Action.perform_executor]

/-! ## Work -/

/-- How the work of an execution will end. -/
def Work.ending : Work → WorkResult
  | .finish result => result
  | .write _ rest => rest.ending
  | .wait rest => rest.ending

@[simp] lemma Work.ending_advance (gateOpen : Bool) (a : Accumulators) (w : Work) :
    (w.advance gateOpen a).1.ending = w.ending := by
  induction w generalizing a with
  | finish result => rfl
  | write w rest ih =>
      rw [advance, ih]
      rfl
  | wait rest ih =>
      rw [advance]
      split_ifs
      · rw [ih]
        rfl
      · rfl

lemma Work.ending_of_result {w : Work} {result : WorkResult} (h : w.result? = some result) :
    w.ending = result := by
  cases w with
  | finish r => simpa [result?, ending] using h
  | write w rest => simp [result?] at h
  | wait rest => simp [result?] at h

/-- What waits for nothing is finished at once. -/
lemma Work.result?_advance (a : Accumulators) (w : Work) : (w.advance true a).1.result? = some w.ending := by
  induction w generalizing a with
  | finish result => rfl
  | write w rest ih => exact ih _
  | wait rest ih => exact ih a

/-! ## Tasks -/

namespace Cluster

variable (c : Cluster)

/-- Where a tick leads a task that is at work: an interrupt is looked at first, and otherwise the
work is finished or stands still. -/
inductive Leads (t : RunTask) (work : Work) : TaskPhase → Prop where
  | interrupted : c.isInterrupted t = true → Leads t work (.resolved none)
  | finished : Leads t work (.resolved (some work.ending))
  | stands {rest : Work} : rest.ending = work.ending → Leads t work (.working rest)

lemma putCounters_countersOf (t : RunTask) : c.putCounters t (c.countersOf t) = c := by
  unfold putCounters countersOf
  cases h : c.slots.find? t.job with
  | none => rfl
  | some slot =>
      simp only
      split_ifs
      · exact congrArg (fun slots => { c with slots := slots }) (Table.insert_of_find? h)
      · rfl

/-- **A task at work that is carried on** writes the counters in its slot and comes into its new phase. -/
lemma resolveTask_eq {t : RunTask} {work : Work} (h : t.phase = .working work) :
    ∃ a phase, c.resolveTask t = (c.putCounters t a).replaceTask { t with phase := phase }
      ∧ c.Leads t work phase := by
  simp only [resolveTask, h]
  split_ifs with interrupted
  · exact ⟨c.countersOf t, _, by rw [putCounters_countersOf], .interrupted interrupted⟩
  · refine ⟨(work.advance t.gateOpen (c.countersOf t)).2, ?_⟩
    cases finished : (work.advance t.gateOpen (c.countersOf t)).1.result? with
    | none => exact ⟨_, rfl, .stands (Work.ending_advance ..)⟩
    | some result =>
        refine ⟨.resolved (some result), rfl, ?_⟩
        rw [← Work.ending_of_result finished, Work.ending_advance]
        exact .finished

@[simp] lemma replaceTask_store (t : RunTask) : (c.replaceTask t).store = c.store := rfl

@[simp] lemma resolved_store (execution : ℕ) : (c.resolved execution).store = c.store := by
  unfold resolved
  cases c.findTask execution with
  | none => rfl
  | some t =>
      simp only
      cases phase : t.phase with
      | resolved result => simp [resolveTask, phase]
      | working work =>
          obtain ⟨a, next, eq, -⟩ := c.resolveTask_eq phase
          rw [eq, replaceTask_store, putCounters_store]

@[simp] lemma resolved_published (execution : ℕ) : (c.resolved execution).published = c.published := by
  unfold resolved
  cases c.findTask execution with
  | none => rfl
  | some t =>
      simp only
      cases phase : t.phase with
      | resolved result => simp [resolveTask, phase]
      | working work =>
          obtain ⟨a, next, eq, -⟩ := c.resolveTask_eq phase
          rw [eq]
          exact c.putCounters_published t a

/-- Only the tasks change. -/
lemma retire_eq (execution : ℕ) :
    c.retire execution = { c with tasks := (c.retire execution).tasks } := by
  unfold retire
  split <;> try split
  all_goals rfl

@[simp] lemma retire_store (execution : ℕ) : (c.retire execution).store = c.store := by
  rw [retire_eq]

@[simp] lemma openGate_store (job : String) : (c.openGate job).2.store = c.store := by
  unfold openGate
  split <;> rfl

@[simp] lemma openGate_slots (job : String) : (c.openGate job).2.slots = c.slots := by
  unfold openGate
  split <;> rfl

@[simp] lemma openGate_published (job : String) :
    (c.openGate job).2.published = c.published := by
  unfold openGate
  split <;> rfl

@[simp] lemma replaceTask_slots (t : RunTask) : (c.replaceTask t).slots = c.slots := rfl

lemma findTask_replaceTask {t u : RunTask} {execution : ℕ} (found : c.findTask execution = some t)
    (same : u.execution = execution) : (c.replaceTask u).findTask execution = some u := by
  unfold findTask at *
  rw [replaceTask]
  generalize c.tasks = tasks at found ⊢
  induction tasks with
  | nil => simp at found
  | cons v rest ih =>
      rw [List.map_cons, List.find?_cons]
      by_cases first : v.execution = execution
      · simp [first, same]
      · rw [List.find?_cons_of_neg (by simpa using first)] at found
        simp only [first, same, if_false, decide_false]
        simpa only [same] using ih found

/-- A publication touches the task table no more than any other writing of records. -/
lemma tasks_after_publish (job : String) (result : Option WorkResult) (now : ℕ) :
    (c.after (Program.plan c (Operation.publish job result now)).2).tasks = c.tasks := by
  rw [Operation.plan_publish]
  cases c.slots.find? job with
  | none => rfl
  | some slot =>
      simp only
      rw [Operation.plan_persist]
      rcases c.store.getJob job with e | _ | r <;> simp [Action.perform_tasks]

lemma tasks_after_publication (execution now : ℕ) :
    (c.after (c.publication execution now)).tasks = c.tasks := by
  unfold publication
  cases c.findTask execution with
  | none => rfl
  | some t =>
      simp only
      cases t.phase with
      | working work => rfl
      | resolved result => exact c.tasks_after_publish ..

/-- **A publication**: the task takes its steps, and then it is gone. -/
lemma react_publish_eq (execution : ℕ) (now : UInt64) :
    c.react (.publish execution now)
      = (c.after (c.publication execution now.toNat)).retire execution := by
  have tasks := c.tasks_after_publication execution now.toNat
  unfold publication at tasks ⊢
  unfold retire
  cases found : c.findTask execution with
  | none => simp [react, found]
  | some t =>
      have same := findTask_execution found
      rw [react_publish found]
      cases phase : t.phase with
      | working work => simp [publishTask, phase, found]
      | resolved result =>
          simp only [found, phase] at tasks ⊢
          simp only [publishTask, phase, Program.run_eq_plan, findTask, tasks, same]
          rw [findTask] at found
          simp only [found, phase, ne_eq, decide_not, bne, beq_eq_decide]

/-- **A task that is settled** takes its two ticks one right after the other. -/
lemma settleTask_eq (execution : ℕ) (now : UInt64) :
    c.settleTask now.toNat execution
      = (c.react (.resolve execution)).react (.publish execution now) := by
  simp only [settleTask, react, resolved]
  cases found : c.findTask execution with
  | none => simp [found]
  | some t =>
      simp only
      cases (c.resolveTask t).findTask execution <;> rfl

/-! ## Ticks -/

/-- **Only the steps of a tick reach the store.** -/
lemma react_store (t : Tick) : (c.react t).store = (c.after (t.actions c)).store := by
  cases t with
  | call q => rw [react_call]; rfl
  | publish execution now =>
      rw [react_publish_eq, retire_store]
      rfl
  | resolve execution => exact c.resolved_store execution
  | openGate job => exact c.openGate_store job
  | write | exchange | restart => rfl

end Cluster

end ControlPlane
