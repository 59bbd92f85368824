import Mathlib
import ControlPlane.Proofs.Cluster.Effect
import ControlPlane.Proofs.Registry.Graphs

/-!
# The shortest way to an execution

Of a job that is not stored, four calls start an execution with an empty graph and without resources,
whatever the executor does then.  Runs that show what can happen begin with them.

* `Cluster.opening` — the calls.
* `Cluster.accepts_opening`, `Cluster.served_opening` — they are accepted, and the steps that they take.
* `Cluster.opened` — the cluster that they lead to.
* `Cluster.play_closing_find?`, `play_closing_stores` — the end of an execution that has nothing left to do.
-/

namespace ControlPlane

/-! ## Calls one after the other -/

/-- The cluster after some calls on a job. -/
def Cluster.serve (c : Cluster) (job : String) (now : ℕ) (calls : List Call) : Cluster :=
  calls.foldl (fun c call => (c.issue now job call).2) c

/-- The steps that some calls on a job take. -/
def Cluster.served (c : Cluster) (job : String) (now : ℕ) : List Call → List Action
  | [] => []
  | call :: rest =>
    call.actions c job now ++ (c.after (call.actions c job now)).served job now rest

lemma Cluster.serve_eq (c : Cluster) (job : String) (now : ℕ) (calls : List Call) :
    c.serve job now calls = c.after (c.served job now calls) := by
  induction calls generalizing c with
  | nil => rfl
  | cons call rest ih =>
      rw [served, after_append, ← ih, ← issue_eq]
      rfl

/-- **Calls on a job are accepted** one after the other, and take some steps together. -/
inductive Cluster.Accepts (job : String) (now : ℕ) : Cluster → List Call → List Action → Prop where
  | nil {c : Cluster} : Accepts job now c [] []
  | cons {c : Cluster} {call : Call} {steps taken : List Action} {rest : List Call}
      (first : Operation.plan c (Call.operation job now call) = (.ok .done, steps))
      (later : Accepts job now (c.after steps) rest taken) :
      Accepts job now c (call :: rest) (steps ++ taken)

lemma Cluster.Accepts.served {job : String} {now : ℕ} {c : Cluster} {calls : List Call}
    {taken : List Action} (h : Accepts job now c calls taken) : c.served job now calls = taken := by
  induction h with
  | nil => rfl
  | cons first later ih => rw [Cluster.served, Call.actions, first, ih]

namespace Cluster

variable {c : Cluster} {job : String}

lemma findRecord_of_stores (valid : Job.isName job = true) {r : Record} (stored : c.Stores job r) :
    c.findRecord job = .ok r := by
  rw [findRecord, if_pos valid, show c.store.getJob job = _ from stored]

/-- A job without a record is registered. -/
lemma plan_register_of_lacks (missing : c.Lacks job) (valid : Job.isName job = true)
    (config : JobConfig) (now : ℕ) :
    Operation.plan c (Call.operation job now (.register config))
      = (.ok .done, [.putJob (Record.new job config now)]) := by
  rw [Call.operation, Operation.plan_map, Operation.plan_register, if_pos valid,
    show c.store.getJob job = _ from missing]
  rfl

lemma findRecord_after_register (c : Cluster) (valid : Job.isName job = true)
    {config : JobConfig} (fits : config.Fits) (now : UInt64) :
    (c.after [.putJob (Record.new job config now.toNat)]).findRecord job
      = .ok (Record.new job config now.toNat) := by
  have record : (Record.new job config now.toNat).Fits := ⟨fits, now.toNat_lt, now.toNat_lt⟩
  have stored := c.store.getJob_putJob record job
  rw [if_pos (show (Record.new job config now.toNat).name = job from rfl)] at stored
  rw [findRecord, if_pos valid]
  simp only [after_cons, after_nil, Action.perform, stored]

/-- A job is deployed without resources. -/
lemma plan_deploy_nothing {r : Record} (found : c.findRecord job = .ok r)
    (status : r.status = .registered) (now : ℕ) :
    Operation.plan c (Call.operation job now (.deploy []))
      = (.ok .done, [.putResources job [], .putJob (r.advance .deployed now)]) := by
  rw [Call.operation, Operation.plan_map, Operation.plan_deploy]
  simp only [found, status, true_or, if_true]
  rfl

/-- A graph is accepted. -/
lemma plan_submit_complete {r : Record} {resources : List Resource} {g : Graph}
    (found : c.findRecord job = .ok r) (status : r.status = .deployed)
    (listed : c.store.listResources job = .ok resources)
    (complete : Operation.missingReferences g resources = []) (now : ℕ) :
    Operation.plan c (Call.operation job now (.submit g))
      = (.ok .done, [.putGraph job g, .putJob (r.advance .submitted now)]) := by
  rw [Call.operation, Operation.plan_map, Operation.plan_submit]
  simp [found, status, listed, complete, Except.map]

/-- A submitted job is started. -/
lemma plan_start_submitted {r : Record} {g : Graph} {resources : List Resource}
    (found : c.findRecord job = .ok r) (fresh : r.executionStarted = false)
    (status : r.status = .submitted) (graph : c.store.getGraph job = .ok (some g))
    (listed : c.store.listResources job = .ok resources) (now : ℕ) :
    Operation.plan c (Call.operation job now .start)
      = (.ok .done, [.putJob ({ r with executionStarted := true }.advance .running now),
        .launch ⟨job, r.config, g, resources⟩]) := by
  rw [Call.operation, Operation.plan_map, Operation.plan_start]
  simp [found, fresh, status, graph, listed, Except.map]

/-- An execution that has no outcome yet is interrupted. -/
lemma plan_interrupt_unfinished {slot : RunSlot} (own : c.slots.find? job = some slot)
    (unfinished : slot.outcome = none) (now : ℕ) :
    Operation.plan c (Call.operation job now .interrupt) = (.ok .done, [.requestInterrupt job]) := by
  rw [Call.operation, Operation.plan_map, Operation.plan_interrupt, own]
  simp [RunSlot.isFinished, unfinished, Except.map]

/-- A start is refused once the job has been started. -/
lemma start_again (valid : Job.isName job = true) {r : Record} (stored : c.Stores job r)
    (started : r.executionStarted = true) (now : ℕ) :
    Operation.plan c (Call.operation job now .start) = (.error (.executionAlreadyStarted job), []) := by
  rw [Call.operation, Operation.plan_map, Operation.plan_start, findRecord_of_stores valid stored]
  simp [started, Except.map]

/-! ## The opening -/

/-- The settings of the registration. -/
def plainConfig : JobConfig := ⟨1, 1, .empty⟩

lemma plainConfig_fits : plainConfig.Fits := by
  constructor <;> decide

/-- A graph with nothing in it. -/
def plainGraph : Graph := Graph.new .null

lemma plainGraph_readable : plainGraph.Readable := ⟨by decide, trivial⟩

/-- **Four calls** that register a job and start it. -/
def opening : List Call := [.register plainConfig, .deploy [], .submit plainGraph, .start]

/-- The same calls as requests. -/
def openingRequests (job : String) (now : UInt64) : List Request :=
  [⟨job, .register plainConfig, now, plainConfig_fits⟩, ⟨job, .deploy [], now, trivial⟩,
    ⟨job, .submit plainGraph, now, trivial⟩, ⟨job, .start, now, trivial⟩]

/-- The calls as ticks. -/
def openingTicks (job : String) (now : UInt64) : List Tick := (openingRequests job now).map .call

/-- What the executor is told of the job then. -/
def plainContext (job : String) : ExecutionContext := ⟨job, plainConfig, plainGraph, []⟩

/-- The record of the job then. -/
def openRecord (job : String) (now : ℕ) : Record :=
  { Record.new job plainConfig now with executionStarted := true }.advance .running now

/-- The steps of the four calls. -/
def openingSteps (job : String) (now : ℕ) : List Action :=
  let r := Record.new job plainConfig now
  [.putJob r, .putResources job [], .putJob (r.advance .deployed now), .putGraph job plainGraph,
    .putJob (r.advance .submitted now), .putJob (openRecord job now), .launch (plainContext job)]

lemma openRecord_sound (job : String) (now : UInt64) : (openRecord job now.toNat).Sound job where
  name := rfl
  fits := ⟨plainConfig_fits, now.toNat_lt, now.toNat_lt⟩
  started := by simp [openRecord, Record.advance]
  failed := by simp [openRecord, Record.advance, Record.new]

/-- **The opening of a job** that is not stored, and of which no resources are left. -/
theorem accepts_opening (missing : c.Lacks job) (valid : Job.isName job = true)
    (none_yet : c.store.listResources job = .ok []) (now : UInt64) :
    Accepts job now.toNat c opening (openingSteps job now.toNat) := by
  set r := Record.new job plainConfig now.toNat with fresh
  have sound : r.Sound job := .ofNew plainConfig_fits now
  have sound_deployed : (r.advance .deployed now.toNat).Sound job :=
    sound.advance .deployed (Nat.zero_lt_succ 2) (by decide) now
  have sound_submitted : (r.advance .submitted now.toNat).Sound job :=
    sound.advance .submitted (Nat.zero_lt_succ 2) (by decide) now
  -- Each call finds the record that the one before it has written.
  have found : ∀ (d : Cluster) (s : Record), s.Sound job →
      ((Action.putJob s).perform d).2.findRecord job = .ok s := fun d s sound =>
    findRecord_of_stores valid ((d.store.getJob_putJob sound.fits job).trans (if_pos sound.name))
  have register := plan_register_of_lacks missing valid plainConfig now.toNat
  have deploy := plan_deploy_nothing (found c r sound) rfl now.toNat
  set c₁ := ((Action.putJob r).perform c).2
  set c₂ := ((Action.putResources job []).perform c₁).2
  set c₃ := ((Action.putJob (r.advance .deployed now.toNat)).perform c₂).2
  have listed₂ : c₂.store.listResources job = .ok [] := none_yet
  have listed₃ : c₃.store.listResources job = .ok [] :=
    (Store.listResources_congr (Action.perform_resources ..) job).trans listed₂
  have submit := plan_submit_complete (g := plainGraph) (found c₂ _ sound_deployed) rfl listed₃ rfl now.toNat
  set c₄ := ((Action.putGraph job plainGraph).perform c₃).2
  have graph : c₄.store.getGraph job = .ok (some plainGraph) :=
    (c₃.store.getGraph_putGraph_iff (g := plainGraph) job trivial).mpr plainGraph_readable
  have listed₄ : c₄.store.listResources job = .ok [] :=
    (Store.listResources_congr (Action.perform_resources ..) job).trans listed₃
  set c₅ := ((Action.putJob (r.advance .submitted now.toNat)).perform c₄).2
  have graph₅ : c₅.store.getGraph job = .ok (some plainGraph) :=
    (Store.getGraph_congr (by rw [Action.perform_graphs])).trans graph
  have listed₅ : c₅.store.listResources job = .ok [] :=
    (Store.listResources_congr (Action.perform_resources ..) job).trans listed₄
  have start := plan_start_submitted (found c₄ _ sound_submitted) rfl rfl graph₅ listed₅ now.toNat
  exact .cons register (.cons deploy (.cons submit (.cons start .nil)))

/-- The steps of the opening. -/
lemma served_opening (missing : c.Lacks job) (valid : Job.isName job = true)
    (none_yet : c.store.listResources job = .ok []) (now : UInt64) :
    c.served job now.toNat opening = openingSteps job now.toNat :=
  (accepts_opening missing valid none_yet now).served

/-! ## The cluster after the opening -/

/-- The cluster after the opening of a job. -/
def opened (c : Cluster) (job : String) (now : ℕ) : Cluster := c.after (openingSteps job now)

lemma play_openingTicks (missing : c.Lacks job) (valid : Job.isName job = true)
    (none_yet : c.store.listResources job = .ok []) (now : UInt64) :
    c.play (openingTicks job now) = c.opened job now.toNat := by
  have served := served_opening missing valid none_yet now
  show c.serve job now.toNat opening = _
  rw [serve_eq, served]
  rfl

section Opened

variable (c) (job) (now : ℕ)

lemma opened_find? (key : String) :
    (c.opened job now).slots.find? key
      = if job = key then some ⟨c.nextExecution, false, none,
          Accumulators.write .empty (c.executor (plainContext job)).atOnce⟩
        else c.slots.find? key := by
  simp [opened, openingSteps, Action.perform_find?, Action.perform_nextExecution, plainContext]

lemma opened_tasks :
    (c.opened job now).tasks
      = c.tasks ++ [⟨c.nextExecution, job, false, .working (c.executor (plainContext job)).work⟩] := by
  simp [opened, openingSteps, Action.perform_tasks, Action.perform_nextExecution, plainContext]

lemma opened_nextExecution : (c.opened job now).nextExecution = c.nextExecution + 1 := by
  simp [opened, openingSteps, Action.perform_nextExecution]

lemma opened_published : (c.opened job now).published = c.published := by
  simp [opened, openingSteps, Action.perform_published]

lemma opened_stores (now : UInt64) :
    (c.opened job now.toNat).Stores job (openRecord job now.toNat) := by
  have sound := openRecord_sound job now
  simp only [Stores, opened, openingSteps, after_cons, after_nil]
  rw [Action.perform_getJob _ _ (by simp)]
  exact (Store.getJob_putJob _ sound.fits job).trans (if_pos sound.name)

end Opened

end Cluster

namespace World

lemma run_concat (w : World) (turns : List Turn) (t : Turn) :
    w.run (turns ++ [t]) = (w.run turns).turn t :=
  run_append w turns [t]

/-- The four calls as turns. -/
def openingTurns (job : String) (now : UInt64) : List Turn :=
  (Cluster.openingTicks job now).map .tick

/-- Calls on a job, as steps. -/
lemma run_calls {job : String} {now : UInt64} (requests : List Request)
    (own : ∀ q ∈ requests, q.job = job ∧ q.now = now) (w : World) :
    w.run (requests.map fun q => .tick (.call q))
      = w.perform (w.cluster.served job now.toNat (requests.map Request.call)) := by
  induction requests generalizing w with
  | nil => exact w.perform_nil.symm
  | cons q rest ih =>
      obtain ⟨rfl, rfl⟩ := own q List.mem_cons_self
      rw [List.map_cons, run_cons, ih (fun r member => own r (List.mem_cons_of_mem q member)), turn_call,
        List.map_cons, Cluster.served, perform_append]
      rfl

/-- The world after the opening. -/
lemma run_opening {w : World} {job : String} (missing : w.cluster.Lacks job)
    (valid : Job.isName job = true) (none_yet : w.cluster.store.listResources job = .ok [])
    (now : UInt64) :
    w.run (openingTurns job now) = w.perform (Cluster.openingSteps job now.toNat) := by
  rw [← Cluster.served_opening missing valid none_yet now]
  have calls := run_calls (Cluster.openingRequests job now)
    (show ∀ q ∈ Cluster.openingRequests job now, q.job = job ∧ q.now = now by simp [Cluster.openingRequests]) w
  rwa [show openingTurns job now = (Cluster.openingRequests job now).map fun q => .tick (.call q) from
    List.map_map]

lemma run_openingTurns {w : World} {job : String} (missing : w.cluster.Lacks job)
    (valid : Job.isName job = true) (none_yet : w.cluster.store.listResources job = .ok [])
    (now : UInt64) :
    (w.run (openingTurns job now)).cluster = w.cluster.opened job now.toNat :=
  congrArg World.cluster (run_opening missing valid none_yet now)

end World

namespace Cluster

variable {c : Cluster}

/-! ## The end of an execution -/

section Finished

variable {t : RunTask} {slot : RunSlot} {result : WorkResult} {execution : ℕ}

/-- An execution that has nothing left to do resolves as soon as it is carried on. -/
lemma resolved_finished (found : c.findTask execution = some t)
    (phase : t.phase = .working (.finish result)) (own : c.slots.find? t.job = some slot)
    (same : slot.execution = t.execution) (calm : slot.interrupted = false) :
    c.resolved execution = c.replaceTask { t with phase := .resolved (some result) } := by
  have quiet : c.isInterrupted t = false := by simp [isInterrupted, own, same, calm]
  have written := c.putCounters_countersOf t
  simp only [resolved, found, resolveTask, phase, quiet, Bool.false_eq_true, if_false, Work.advance,
    Work.result?, written]

/-- Then it publishes the counters of its slot. -/
lemma publication_finished (found : c.findTask execution = some t)
    (phase : t.phase = .working (.finish result)) (own : c.slots.find? t.job = some slot)
    (same : slot.execution = t.execution) (calm : slot.interrupted = false) {r : Record}
    (stored : c.Stores t.job r) (now : ℕ) :
    (c.resolved execution).publication execution now
      = outcomeSteps t.job r (Operation.outcomeOf false (some result)) slot.accumulators now := by
  have here := c.findTask_replaceTask (u := { t with phase := .resolved (some result) }) found
    (show t.execution = execution from findTask_execution found)
  rw [resolved_finished found phase own same calm, publication, here, ← calm]
  exact plan_publish_own (c := c.replaceTask { t with phase := .resolved (some result) }) own stored
    (some result) now

/-- The two ticks at the end of an execution. -/
def closingTicks (execution : ℕ) (now : UInt64) : List Tick := [.resolve execution, .publish execution now]

/-- Afterwards the outcome is in the slot, and the other slots are as they were. -/
lemma play_closing_find? (found : c.findTask execution = some t)
    (phase : t.phase = .working (.finish result)) (own : c.slots.find? t.job = some slot)
    (same : slot.execution = t.execution) (calm : slot.interrupted = false) {r : Record}
    (stored : c.Stores t.job r) (now : UInt64) (key : String) :
    (c.play (closingTicks execution now)).slots.find? key
      = if t.job = key then some { slot with outcome := some (Operation.outcomeOf false (some result)) }
        else c.slots.find? key := by
  show ((c.resolved execution).react (.publish execution now)).slots.find? key = _
  rw [react_publish_eq, retire_eq, publication_finished found phase own same calm stored,
    resolved_finished found phase own same calm]
  simp only [outcomeSteps, after_cons, after_nil, Action.perform_find?, replaceTask_slots]
  split_ifs with here
  · subst here
    simp [own]
  · rfl

/-- And the record says so. -/
lemma play_closing_stores (found : c.findTask execution = some t)
    (phase : t.phase = .working (.finish result)) (own : c.slots.find? t.job = some slot)
    (same : slot.execution = t.execution) (calm : slot.interrupted = false) {r : Record}
    (stored : c.Stores t.job r) (now : UInt64)
    (ended : (r.finish (Operation.outcomeOf false (some result)) now.toNat).Sound t.job) :
    (c.play (closingTicks execution now)).Stores t.job
      (r.finish (Operation.outcomeOf false (some result)) now.toNat) := by
  show ((c.resolved execution).react (.publish execution now)).store.getJob t.job = _
  rw [react_publish_eq, retire_store, publication_finished found phase own same calm stored]
  exact stores_outcomeSteps ended.name ended.fits ..

end Finished

end Cluster

/-! ## A job that sets a counter -/

/-- An execution that sets one counter and is finished. -/
def setting (a : Accumulator) : Executor := fun _ => ⟨[.set "x" a], .finish (.ok ())⟩

/-- What there is after its opening. -/
lemma World.run_opening_setting (a : Accumulator) :
    let c := ((World.start (setting a)).run (openingTurns "a" 0)).cluster
    c.findTask 0 = some ⟨0, "a", false, .working (.finish (.ok ()))⟩
      ∧ c.slots.find? "a" = some ⟨0, false, none, Accumulators.write .empty [.set "x" a]⟩
      ∧ c.Stores "a" (Cluster.openRecord "a" (0 : UInt64).toNat) := by
  intro c
  set b := Cluster.ofStore .empty (setting a) with start
  have opened : c = b.opened "a" (0 : UInt64).toNat :=
    run_openingTurns (w := World.start (setting a)) rfl (by decide) rfl 0
  have next : b.nextExecution = 0 := rfl
  have told : b.executor = setting a := rfl
  rw [opened]
  refine ⟨?_, ?_, b.opened_stores "a" 0⟩
  · rw [Cluster.findTask, b.opened_tasks, next, told]
    rfl
  · rw [b.opened_find?, if_pos rfl, next, told]
    rfl

/-- There is nothing else. -/
lemma World.run_opening_setting_only (a : Accumulator) :
    let c := ((World.start (setting a)).run (openingTurns "a" 0)).cluster
    c.tasks = [⟨0, "a", false, .working (.finish (.ok ()))⟩]
      ∧ ∀ key, "a" ≠ key → c.slots.find? key = none := by
  intro c
  have opened : c = (Cluster.ofStore .empty (setting a)).opened "a" (0 : UInt64).toNat :=
    run_openingTurns (w := World.start (setting a)) rfl (by decide) rfl 0
  rw [opened]
  refine ⟨(Cluster.opened_tasks ..).trans rfl, fun key other => ?_⟩
  rw [Cluster.opened_find?, if_neg other]
  rfl

end ControlPlane
