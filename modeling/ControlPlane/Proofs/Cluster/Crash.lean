import Mathlib
import ControlPlane.Proofs.Cluster.Counters
import ControlPlane.Proofs.Registry.Resources

/-!
# What is in the store after a crash

A process may end after any step of a call or of a publication, and then another cluster is made over
the same store.  An operation that writes twice writes the record last, and so a record never promises
what is not stored yet.  The publication of an outcome is the exception: it writes the record first, and
when the process ends before the counters are written, they are lost.

* `Store.Equipped` — the graph of a job is stored, and so is every resource that it refers to.
* `Store.Furnished` — every job that has been submitted is equipped.  Each step keeps this.
* `World.Ends` — what one turn does to a job that has ended: it is removed, a task publishes in its slot, or
  nothing happens to it.
* `World.registry_after_crash` — the statement about runs.
-/

namespace ControlPlane

/-! ## Graphs and their resources -/

namespace Store

lemma putJob_accumulators (s : Store) (r : Record) : (s.putJob r).accumulators = s.accumulators := rfl

/-- **A job has its graph**, and the resources that the graph refers to. -/
structure Equipped (s : Store) (job : String) : Prop where
  valid : Job.isName job = true
  graph : ∃ g : Graph, s.graphs.find? job = some (.of g.toJson) ∧
    ∀ name ∈ g.references.names, ∃ x, x.name = name ∧ s.getResource job name = .ok (some x)

/-- **Every job that has been submitted is equipped.** -/
structure Furnished (s : Store) : Prop where
  labelled : s.Labelled
  equipped : ∀ {job r}, s.getJob job = .ok (some r) → 2 ≤ r.status.rank → s.Equipped job

variable {s t : Store} {job : String}

lemma Labelled.of_resources (h : s.Labelled) (same : t.resources = s.resources) : t.Labelled := by
  intro key row found
  exact h key row (same ▸ found)

/-- The graph is the same, and there still is a resource under each name. -/
lemma Equipped.of_rows (h : s.Equipped job) (graph : t.graphs.find? job = s.graphs.find? job)
    (resource : ∀ x, s.getResource job x.name = .ok (some x) →
      ∃ y, y.name = x.name ∧ t.getResource job x.name = .ok (some y)) : t.Equipped job where
  valid := h.valid
  graph := by
    obtain ⟨g, row, all⟩ := h.graph
    refine ⟨g, graph.trans row, fun name member => ?_⟩
    obtain ⟨x, rfl, there⟩ := all name member
    exact resource x there

lemma Equipped.of_tables (h : s.Equipped job) (graph : t.graphs.find? job = s.graphs.find? job)
    (resources : t.resources = s.resources) : t.Equipped job := by
  refine h.of_rows graph fun x there => ⟨x, rfl, ?_⟩
  rw [getResource, resources]
  exact there

/-- **A resource that is stored once more** is still the one under its name. -/
lemma Equipped.putResources (h : s.Equipped job) (labelled : s.Labelled) {key : String}
    (valid : Job.isName key = true) (rs : List Resource) : (s.putResources key rs).Equipped job := by
  refine h.of_rows rfl fun x there => ?_
  have before : (s.resources.find? (resourceKey job x.name)).isSome = true := by
    rw [getResource, get] at there
    cases row : s.resources.find? (resourceKey job x.name) with
    | none => simp [row] at there
    | some row => rfl
  obtain ⟨row, found⟩ := Option.isSome_iff_exists.mp
    ((Table.isSome_insertMany s.resources (rs.map fun r => (resourceKey key r.name, .of r.toJson))
      (resourceKey job x.name)).mpr (.inl before))
  obtain ⟨owner, y, valid', label, rfl⟩ := labelled.putResources valid rs _ row found
  obtain ⟨rfl, same⟩ := resourceKey_inj h.valid valid' label
  refine ⟨y, same.symm, ?_⟩
  rw [getResource, get, show (s.putResources key rs).resources.find? _ = _ from found]
  exact congrArg (Except.map some) (Row.decode_resource y)

/-- **The removal of another job** leaves the graph and the resources of this one. -/
lemma Equipped.purge (h : s.Equipped job) {key : String} (valid : Job.isName key = true)
    (other : key ≠ job) : (s.purge key).2.Equipped job := by
  refine h.of_rows (by simp [Store.purge, Ne.symm other]) fun x there => ⟨x, rfl, ?_⟩
  have foreign : isOwned key (resourceKey job x.name) = false := by
    by_contra owned
    obtain ⟨name, same⟩ := resourceKey_of_isOwned (eq_true_of_ne_false owned)
    exact other (resourceKey_inj h.valid valid same).1.symm
  rw [← there, getResource, getResource, get, get]
  simp [Store.purge, foreign]

end Store

namespace World

variable {w : World}

/-- What a step must satisfy: a record of a submitted job is written last, and its graph is not written
again. -/
def Furnishes (w : World) : Action → Prop
  | .putJob r => r.Fits ∧ (2 ≤ r.status.rank → w.cluster.store.Equipped r.name)
  | .putResources job _ | .purge job => Job.isName job = true
  | .putGraph job _ => ∀ r, w.cluster.Stores job r → r.status.rank < 2
  | _ => True

/-- **One such step** keeps all submitted jobs equipped. -/
theorem furnished_step (h : w.cluster.store.Furnished) {a : Action} (furnishes : w.Furnishes a) :
    (w.perform [a]).cluster.store.Furnished := by
  show (a.perform w.cluster).2.store.Furnished
  set s := w.cluster.store
  cases a
  case putJob r =>
    obtain ⟨fits, equipped⟩ := furnishes
    refine ⟨h.labelled.of_resources rfl, fun {job r'} stored submitted => ?_⟩
    have record : (s.putJob r).getJob job = .ok (some r') := stored
    rw [s.getJob_putJob fits] at record
    split_ifs at record with here
    · subst here
      obtain rfl : r = r' := by simpa using record
      exact (equipped submitted).of_tables rfl rfl
    · exact (h.equipped record submitted).of_tables rfl rfl
  case putResources key rs =>
    exact ⟨h.labelled.putResources furnishes rs, fun stored submitted =>
      (h.equipped stored submitted).putResources h.labelled furnishes rs⟩
  case putGraph key g =>
    refine ⟨h.labelled.of_resources rfl, fun {job r} stored submitted => ?_⟩
    have other : key ≠ job := by
      rintro rfl
      exact absurd submitted (not_le.mpr (furnishes r stored))
    exact (h.equipped stored submitted).of_tables (by simp [Action.perform, Store.putGraph, other, s]) rfl
  case purge key =>
    refine ⟨h.labelled.purge key, fun {job r} stored submitted => ?_⟩
    have record : (s.purge key).2.getJob job = .ok (some r) := stored
    rw [s.getJob_purge] at record
    split_ifs at record with other
    · simp at record
    · exact (h.equipped record submitted).purge furnishes (Ne.symm other)
  all_goals
    refine ⟨h.labelled.of_resources (Action.perform_resources ..), fun {job r} stored submitted => ?_⟩
    rw [Action.perform_getJob _ _ (by simp)] at stored
    exact (h.equipped stored submitted).of_tables (by rw [Action.perform_graphs])
      (Action.perform_resources ..)

lemma furnished_perform (h : w.cluster.store.Furnished) {actions : List Action}
    (obeys : Obeys Furnishes w actions) : (w.perform actions).cluster.store.Furnished :=
  @Obeys.keeps Furnishes w actions (fun v => v.cluster.store.Furnished)
    (fun {_ _} furnished furnishes => furnished_step furnished furnishes) obeys h

end World

/-- What a submission that changes something has found, and what it writes. -/
lemma Cluster.submit_cases (c : Cluster) (job : String) (g : Graph) (now : ℕ) :
    (Call.submit g).actions c job now = [] ∨ ∃ r resources, c.findRecord job = .ok r
      ∧ r.status = .deployed ∧ c.store.listResources job = .ok resources
      ∧ Operation.missingReferences g resources = []
      ∧ (Call.submit g).actions c job now
        = [.putGraph job g, .putJob (r.advance .submitted now)] := by
  rw [Call.actions_eq]
  simp only [Operation.plan_submit]
  rcases found : c.findRecord job with e | r
  · exact .inl rfl
  · by_cases status : r.status = .deployed
    · rcases listed : c.store.listResources job with e | resources
      · simp [status]
      · by_cases complete : Operation.missingReferences g resources = []
        · exact .inr ⟨r, resources, rfl, status, rfl, complete, by simp [status, complete]⟩
        · simp [status, complete]
    · simp [status]

/-- A resource that is not missing is listed. -/
lemma Operation.exists_of_missingReferences {g : Graph} {resources : List Resource}
    (complete : missingReferences g resources = []) {name : String}
    (member : name ∈ g.references.names) : ∃ r ∈ resources, r.name = name := by
  have listed := List.filter_eq_nil_iff.mp complete name member
  simpa using listed

namespace World

variable {w : World}

/-- A graph is written before the record says that it is. -/
lemma furnishes_submit (h : w.cluster.store.Furnished) (sound : w.cluster.Sound) {job : String}
    {r : Record} {g : Graph} {resources : List Resource} (found : w.cluster.findRecord job = .ok r)
    (status : r.status = .deployed) (listed : w.cluster.store.listResources job = .ok resources)
    (complete : Operation.missingReferences g resources = []) (now : UInt64) :
    Obeys Furnishes w [.putGraph job g, .putJob (r.advance .submitted now.toNat)] := by
  have stored := Cluster.stores_of_findRecord found
  have valid := Cluster.isName_of_findRecord found
  have before := sound.record stored
  have after := before.advance .submitted (by simp [status, JobStatus.rank]) (by decide) now
  refine .cons (fun r' stored' => ?_) (.cons ⟨after.fits, fun _ => ?_⟩ .nil)
  · rw [← stored.unique stored', status]
    decide
  · rw [after.name]
    refine ⟨valid, g, by simp [World.perform, Action.perform, Store.putGraph], fun name member => ?_⟩
    obtain ⟨x, among, rfl⟩ := Operation.exists_of_missingReferences complete member
    exact ⟨x, rfl, h.labelled.getResource_of_listed valid listed among⟩

/-- **Every call** writes the record of a job last. -/
theorem furnishes_call (h : w.cluster.store.Furnished) (sound : w.cluster.Sound) (q : Request) :
    Obeys Furnishes w (q.actions w.cluster) := by
  have effect := q.effect w.cluster
  obtain ⟨job, call, now, fits⟩ := q
  simp only [Request.actions] at effect ⊢
  -- What a submission has found does not show in its effect.
  by_cases submission : ∃ g, call = .submit g
  · obtain ⟨g, rfl⟩ := submission
    rcases w.cluster.submit_cases job g now.toNat with none_ | ⟨r, resources, found, status, listed, complete, eq⟩
    · rw [none_]
      exact .nil
    · rw [eq]
      exact furnishes_submit h sound found status listed complete now
  generalize call.actions w.cluster job now.toNat = actions at effect
  cases effect with
  | nothing => exact .nil
  | @create config missing fits now =>
      have new : (Record.new job config now.toNat).Sound job := .ofNew fits now
      exact .cons ⟨new.fits, by simp [Record.new, JobStatus.rank]⟩ .nil
  | configure stored status fits now =>
      have configured := (sound.record stored).configure fits now
      exact .cons ⟨configured.fits, by simp [status, JobStatus.rank]⟩ .nil
  | @deploy r valid stored status rs now =>
      have early : r.status.rank < 3 := by
        rcases status with status | status <;> simp [status, JobStatus.rank]
      have deployed := (sound.record stored).advance .deployed early (by decide) now
      exact .cons valid (.cons ⟨deployed.fits, by simp [Record.advance, JobStatus.rank]⟩ .nil)
  | submit stored status graph now => exact absurd ⟨graph, rfl⟩ submission
  | @start r stored status fresh graph resources now =>
      have started := (sound.record stored).start status now
      refine .cons ⟨started.fits, fun _ => ?_⟩ (.cons trivial .nil)
      rw [started.name]
      exact h.equipped stored (by simp [status, JobStatus.rank])
  | interrupt found unfinished => exact .cons trivial .nil
  | destroy valid => exact .cons trivial (.cons valid .nil)

/-- **A publication** finishes the record of a job that is equipped. -/
lemma furnishes_publication (h : w.cluster.store.Furnished) (sound : w.cluster.Sound) {execution : ℕ}
    {now : UInt64} {steps : List Action} (reports : w.cluster.Reports execution now.toNat steps) :
    Obeys Furnishes w steps := by
  cases reports with
  | nothing => exact .nil
  | @outcome t result slot r found phase there stored tells =>
      have started := tells.rank
      have finished := (sound.record stored).finish started (Operation.outcomeOf slot.interrupted result) now
      refine .cons ⟨finished.fits, fun _ => ?_⟩ (.cons trivial (.cons trivial .nil))
      rw [finished.name]
      exact h.equipped stored (by omega)

/-- **Every tick** writes the record of a job last. -/
lemma furnishes_tick (h : w.cluster.store.Furnished) (orderly : w.Orderly) (t : Tick) :
    Obeys Furnishes w (t.actions w.cluster) := by
  have sound := orderly.lawful.sound
  cases t with
  | call q => exact furnishes_call h sound q
  | publish execution now =>
      exact furnishes_publication h sound (orderly.attended.reports execution now.toNat)
  | resolve | write | openGate | exchange | restart => exact .nil

/-- One turn. -/
lemma furnished_turn (h : w.cluster.store.Furnished) (orderly : w.Orderly) (t : Turn) :
    (w.turn t).cluster.store.Furnished := by
  cases t with
  | tick t =>
      show (w.cluster.react t).store.Furnished
      rw [w.cluster.react_store t]
      exact furnished_perform h (furnishes_tick h orderly t)
  | cut t n => exact furnished_perform h ((furnishes_tick h orderly t).take n)

/-- **Runs** keep all submitted jobs equipped. -/
theorem furnished_run (h : w.cluster.store.Furnished) (orderly : w.Orderly) (turns : List Turn) :
    (w.run turns).cluster.store.Furnished := by
  induction turns generalizing w with
  | nil => exact h
  | cons t turns ih => exact ih (furnished_turn h orderly t) (orderly.turn t)

lemma furnished_of_run (executor : Executor) (turns : List Turn) :
    ((World.start executor).run turns).cluster.store.Furnished := by
  refine furnished_run ⟨?_, ?_⟩ (Orderly.start executor) turns <;>
    simp [World.start, Cluster.ofStore, Store.empty, Store.Labelled, Store.getJob, Store.get]

end World

/-! ## The end of a job -/

/-- A step that neither ends a job nor writes its counters. -/
def Action.Quiet (job : String) : Action → Prop
  | putJob r => r.Fits ∧ (r.name = job → r.status.isFinished = false)
  | putAccumulators key _ => key ≠ job
  | _ => True

namespace Cluster

variable {c d : Cluster} {job key : String}

/-- **Quiet steps** leave the counters of a job, and end no job. -/
lemma after_quiet {actions : List Action} (quiet : ∀ a ∈ actions, a.Quiet job)
    (kept : .purge job ∉ actions) (c : Cluster) :
    (c.after actions).store.accumulators.find? job = c.store.accumulators.find? job
      ∧ ∀ r, (c.after actions).Stores job r → r.status.isFinished = true → c.Stores job r := by
  induction actions generalizing c with
  | nil => exact ⟨rfl, fun r stored _ => stored⟩
  | cons a rest ih =>
      obtain ⟨row, record⟩ := ih (fun b member => quiet b (List.mem_cons_of_mem a member))
        (List.not_mem_of_not_mem_cons kept) (a.perform c).2
      have first := quiet a List.mem_cons_self
      have other := (List.ne_of_not_mem_cons kept).symm
      refine ⟨row.trans ?_, fun r stored finished => ?_⟩
      · rw [Action.perform_accumulators]
        cases a
        case putAccumulators key s => simp [show key ≠ job from first]
        case purge key =>
          have : job ≠ key := by
            rintro rfl
            exact other rfl
          simp [this]
        all_goals rfl
      · have later := record r stored finished
        have fits : ∀ s, a = .putJob s → s.Fits := by
          rintro s rfl
          exact first.1
        rw [Stores, Action.perform_getJob _ _ fits] at later
        cases a
        case putJob s =>
          simp only at later
          split_ifs at later with here
          · obtain rfl : s = r := by simpa using later
            simp [first.2 here] at finished
          · exact later
        case purge key =>
          simp only at later
          split_ifs at later
          · simp at later
          · exact later
        all_goals exact later

/-- Calls end no job. -/
lemma Effect.quiet {call : Call} {actions : List Action} (effect : c.Effect key call actions)
    (sound : c.Sound) : ∀ a ∈ actions, a.Quiet job := by
  cases effect with
  | nothing => simp
  | @create config missing fits now =>
      have new : (Record.new key config now.toNat).Sound key := .ofNew fits now
      simpa [Action.Quiet, Record.new, JobStatus.isFinished] using new.fits
  | configure stored status fits now =>
      have configured := ((sound.record stored).configure fits now).fits
      simpa [Action.Quiet, status, JobStatus.isFinished] using configured
  | @deploy r valid stored status rs now =>
      have early : r.status.rank < 3 := by
        rcases status with status | status <;> simp [status, JobStatus.rank]
      have deployed := ((sound.record stored).advance .deployed early (by decide) now).fits
      simpa [Action.Quiet, Record.advance, JobStatus.isFinished] using deployed
  | @submit r stored status graph now =>
      have early : r.status.rank < 3 := by simp [status, JobStatus.rank]
      have submitted := ((sound.record stored).advance .submitted early (by decide) now).fits
      simpa [Action.Quiet, Record.advance, JobStatus.isFinished] using submitted
  | start stored status fresh graph resources now =>
      have started := ((sound.record stored).start status now).fits
      simpa [Action.Quiet, Record.advance, JobStatus.isFinished] using started
  | interrupt found unfinished => simp [Action.Quiet]
  | destroy valid => simp [Action.Quiet]

/-- The first steps of a publication: the record comes first, then the counters. -/
lemma after_take_outcomeSteps (c : Cluster) {r : Record} (sound : r.Sound job)
    (started : 3 ≤ r.status.rank) (outcome : Job.Outcome) (a : Accumulators) (now : UInt64) (n : ℕ) :
    let d := c.after ((outcomeSteps job r outcome a now.toNat).take (n + 1))
    d.Stores job (r.finish outcome now.toNat)
      ∧ d.store.accumulators.find? job
        = if n = 0 then c.store.accumulators.find? job else some (.of a.toJson) := by
  have finished := sound.finish started outcome now
  have stored : (c.after [.putJob (r.finish outcome now.toNat)]).Stores job
      (r.finish outcome now.toNat) :=
    (c.store.getJob_putJob finished.fits job).trans (if_pos finished.name)
  rcases n with _ | _ | n
  · exact ⟨stored, rfl⟩
  · exact ⟨stored, by simp [outcomeSteps, Action.perform_accumulators]⟩
  · rw [List.take_of_length_le (by simp [outcomeSteps])]
    refine ⟨?_, by simp [outcomeSteps, Action.perform_accumulators]⟩
    simp only [outcomeSteps, after_cons, after_nil, Stores]
    rw [Action.perform_getJob _ _ (by simp), Action.perform_getJob _ _ (by simp)]
    exact stored

end Cluster

/-! ## Turns and the end of a job -/

/-- The process ends between the record and the counters. -/
def Turn.breaksOff : Turn → Bool
  | .cut (.publish _ _) n => n = 1
  | _ => false

/-- Only a call that destroys a job removes it, and it leaves neither its record nor its counters. -/
lemma Tick.Takes.removes {c : Cluster} {t : Tick} {actions : List Action} (takes : t.Takes c actions)
    {n : ℕ} {job : String} (member : .purge job ∈ actions.take n) :
    (c.after (actions.take n)).Lacks job
      ∧ (c.after (actions.take n)).store.accumulators.find? job = none := by
  obtain ⟨destroys, whole⟩ := takes.purge_mem member
  cases takes with
  | @call q actions effect =>
      obtain ⟨key, call, now, fits⟩ := q
      obtain ⟨rfl, rfl⟩ := destroys
      cases effect with
      | nothing => simp at member
      | destroy valid =>
          rw [List.take_of_length_le (by simpa using whole)]
          refine ⟨(Store.getJob_purge _ key key).trans (if_pos rfl), ?_⟩
          simp [Action.perform_accumulators]
  | publish => exact destroys.elim
  | nothing => simp at member

lemma Turn.Takes.removes {c : Cluster} {t : Turn} {actions : List Action} (takes : t.Takes c actions)
    {job : String} (member : .purge job ∈ actions) :
    (c.after actions).Lacks job ∧ (c.after actions).store.accumulators.find? job = none := by
  cases takes with
  | tick takes =>
      rw [← actions.take_length] at member ⊢
      exact takes.removes member
  | cut takes n => exact takes.removes member

/-- **A tick ends no job**, or it is a publication in its slot. -/
lemma Tick.Takes.quiet_or_posts {c : Cluster} {t : Tick} {actions : List Action} (takes : t.Takes c actions)
    (sound : c.Sound) (job : String) :
    (∀ a ∈ actions, a.Quiet job) ∨ ∃ execution now slot r outcome, t = .publish execution now
      ∧ t.Posts c job execution slot ∧ c.Stores job r ∧ 3 ≤ r.status.rank
      ∧ actions = Cluster.outcomeSteps job r outcome slot.accumulators now.toNat := by
  cases takes with
  | call effect => exact .inl (effect.quiet sound)
  | @publish execution now actions reports =>
      cases reports with
      | nothing => simp
      | @outcome t result slot r found phase there stored tells =>
          by_cases here : t.job = job
          · subst here
            exact .inr ⟨execution, now, slot, r, _, rfl, .publish found phase rfl there now, stored,
              tells.rank, rfl⟩
          · have finished := (sound.record stored).finish tells.rank
              (Operation.outcomeOf slot.interrupted result) now
            refine .inl fun action member => ?_
            simp only [Cluster.outcomeSteps, List.mem_cons, List.not_mem_nil, or_false] at member
            rcases member with rfl | rfl | rfl
            · exact ⟨finished.fits, fun same => absurd (finished.name.symm.trans same) here⟩
            · exact here
            · trivial
  | nothing => simp

/-- Of a publication that is cut, the first steps are taken. -/
lemma Turn.Takes.quiet_or_posts {c : Cluster} {t : Turn} {actions : List Action} (takes : t.Takes c actions)
    (sound : c.Sound) (job : String) :
    (∀ a ∈ actions, a.Quiet job) ∨ ∃ (execution : ℕ) (now : UInt64) (slot : RunSlot) (r : Record)
      (outcome : Job.Outcome) (n : ℕ),
      t.Posts c job execution slot ∧ (t.breaksOff = true ↔ n = 0) ∧ c.Stores job r ∧ 3 ≤ r.status.rank
      ∧ actions = (Cluster.outcomeSteps job r outcome slot.accumulators now.toNat).take (n + 1) := by
  cases takes with
  | tick takes =>
      refine (takes.quiet_or_posts sound job).imp_right ?_
      rintro ⟨execution, now, slot, r, outcome, rfl, posts, stored, started, rfl⟩
      exact ⟨execution, now, slot, r, outcome, 2, posts, by simp [Turn.breaksOff], stored, started, rfl⟩
  | @cut tick actions takes n =>
      rcases takes.quiet_or_posts sound job with
        quiet | ⟨execution, now, slot, r, outcome, rfl, posts, stored, started, rfl⟩
      · exact .inl fun a member => quiet a (List.mem_of_mem_take member)
      · rcases n with _ | n
        · simp
        · exact .inr ⟨execution, now, slot, r, outcome, n, ⟨posts, n.succ_pos⟩, by simp [Turn.breaksOff],
            stored, started, rfl⟩

namespace World

/-- **What a turn does to a job that has ended.** -/
inductive Ends (job : String) (t : Turn) (w v : World) : Prop where
  | removed (missing : v.cluster.Lacks job) (row : v.cluster.store.accumulators.find? job = none)
  | ended {execution : ℕ} {slot : RunSlot} {s : Record} (posts : t.Posts w.cluster job execution slot)
      (after : v.cluster.Stores job s) (finished : s.status.isFinished = true)
      (row : v.cluster.store.accumulators.find? job
        = if t.breaksOff then w.cluster.store.accumulators.find? job else some (.of slot.accumulators.toJson))
  | untouched (carried : Carries job w v)
      (row : v.cluster.store.accumulators.find? job = w.cluster.store.accumulators.find? job)
      (old : ∀ r, v.cluster.Stores job r → r.status.isFinished = true → w.cluster.Stores job r)

variable {w : World} {job : String}

/-- **Every turn** removes a job, ends it, or leaves it alone. -/
theorem Orderly.ends (h : w.Orderly) (job : String) (t : Turn) : Ends job t w (w.turn t) := by
  obtain ⟨actions, d, eq, store, obeys, takes⟩ := h.turn_eq t
  rw [eq]
  by_cases removes : .purge job ∈ actions
  · obtain ⟨missing, row⟩ := takes.removes removes
    refine .removed ?_ ?_
    · show d.store.getJob job = _
      rw [store]
      exact missing
    · exact (congrArg (fun s : Store => s.accumulators.find? job) store).trans row
  rcases takes.quiet_or_posts h.lawful.sound job with
    quiet | ⟨execution, now, slot, r, outcome, n, posts, breaks, stored, started, rfl⟩
  · obtain ⟨row, old⟩ := Cluster.after_quiet quiet removes w.cluster
    refine .untouched ((Carries.perform obeys removes).trans (.of_store rfl store)) ?_ fun r stored => ?_
    · exact (congrArg (fun s : Store => s.accumulators.find? job) store).trans row
    · exact old r ((congrArg (fun s : Store => s.getJob job) store).symm.trans stored)
  · have sound := h.lawful.sound.record stored
    obtain ⟨finished, row⟩ := w.cluster.after_take_outcomeSteps sound started outcome slot.accumulators now n
    refine .ended posts (s := r.finish outcome now.toNat) ?_ (by cases outcome <;> rfl) ?_
    · show d.store.getJob job = _
      rw [store]
      exact finished
    · show d.store.accumulators.find? job = _
      rw [store, row]
      simp only [breaks]

/-! ## Runs -/

/-- **The turn in which a job has ended**, and what is left of its counters: when the process ended between
the record and the counters, only what had been stored before. -/
structure EndedIn (executor : Executor) (turns : List Turn) (job : String) (before : List Turn)
    (t : Turn) (after : List Turn) (execution : ℕ) (slot : RunSlot) : Prop where
  parts : turns = before ++ t :: after
  posts : t.Posts ((World.start executor).run before).cluster job execution slot
  carried : Carries job ((World.start executor).run (before ++ [t])) ((World.start executor).run turns)
  row : ((World.start executor).run turns).cluster.store.accumulators.find? job
    = if t.breaksOff then ((World.start executor).run before).cluster.store.accumulators.find? job
      else some (.of slot.accumulators.toJson)

/-- Counters are stored of jobs that have ended only, and these have ended in some turn. -/
lemma ended_run (executor : Executor) (turns : List Turn) (job : String) :
    let w := (World.start executor).run turns
    ((w.cluster.store.accumulators.find? job).isSome = true →
        ∃ r, w.cluster.Stores job r ∧ r.status.isFinished = true)
      ∧ ∀ r, w.cluster.Stores job r → r.status.isFinished = true →
        ∃ before t after execution slot, EndedIn executor turns job before t after execution slot := by
  induction turns using List.reverseRecOn with
  | nil => simp [World.start, Cluster.ofStore, Store.empty, Cluster.Stores, Store.getJob, Store.get]
  | append_singleton turns t ih =>
      intro v
      set w := (World.start executor).run turns with earlier
      have orderly : w.Orderly := (Orderly.start executor).run turns
      have last : v = w.turn t := run_append _ turns [t]
      obtain ⟨counted, ended⟩ := ih
      rcases orderly.ends job t with ⟨missing, row⟩ | ⟨posts, after, finished, row⟩ | ⟨carried, row, old⟩
      · rw [← last] at missing row
        exact ⟨by simp [row], fun r stored => absurd stored missing.not_stores⟩
      · rw [← last] at after row
        exact ⟨fun _ => ⟨_, after, finished⟩, fun r stored _ =>
          ⟨turns, t, [], _, _, rfl, posts, .of_store rfl rfl, row⟩⟩
      · rw [← last] at carried row old
        constructor
        · intro some_row
          rw [row] at some_row
          obtain ⟨r, stored, finished⟩ := counted some_row
          obtain ⟨-, -, -, forward⟩ := carried
          obtain ⟨s, stored', precedes⟩ := forward r stored
          exact ⟨s, stored', precedes.finished finished⟩
        · intro r stored finished
          obtain ⟨before, u, after, execution, slot, parts, posts, since, left⟩ :=
            ended r (old r stored finished) finished
          refine ⟨before, u, after ++ [t], execution, slot, by simp [parts], posts, since.trans carried, ?_⟩
          rw [row, left]

/-- **The registry after a crash.**  Take any run from an empty store, in which every call and every
publication may be cut after any of its steps, and a record that is stored then.  If the job has ended, there
is a last turn in which a task has published in its slot, and it has not been removed since.  The counters of
the slot are stored, but not if the process ended in this turn between the record and the counters: then only
those are stored that had been stored before, and if the job had not ended before, no counters are told as if
none had been written.  If the job has been submitted, it has its graph and every resource to which the graph
refers. -/
theorem registry_after_crash (executor : Executor) (turns : List Turn) {job : String} {r : Record}
    (stored : ((World.start executor).run turns).cluster.Stores job r) :
    let w := (World.start executor).run turns
    (r.status.isFinished = true → ∃ before t after execution slot,
      EndedIn executor turns job before t after execution slot
      ∧ (t.breaksOff = true →
        (∀ s, ((World.start executor).run before).cluster.Stores job s → s.status.isFinished = false) →
        ∀ now, w.cluster.toldCounters job now = .answered (.ok (.counters .empty))))
      ∧ (2 ≤ r.status.rank → w.cluster.store.Equipped job) := by
  intro w
  have orderly : w.Orderly := (Orderly.start executor).run turns
  have furnished : w.cluster.store.Furnished := furnished_of_run executor turns
  refine ⟨fun finished => ?_, furnished.equipped stored⟩
  obtain ⟨before, t, after, execution, slot, ended⟩ := (ended_run executor turns job).2 r stored finished
  refine ⟨before, t, after, execution, slot, ended, fun breaks unfinished now => ?_⟩
  have row : w.cluster.store.accumulators.find? job = none := by
    rw [ended.row, if_pos breaks]
    by_contra some_row
    obtain ⟨s, stored', finished'⟩ := (ended_run executor before job).1 (Option.isSome_iff_ne_none.mpr some_row)
    simp [unfinished s stored'] at finished'
  have valid := (furnished.equipped stored (by
    cases status : r.status <;> simp_all [JobStatus.isFinished, JobStatus.rank])).valid
  -- A slot would tell an outcome, and then the counters would be stored.
  have free : w.cluster.slots.find? job = none := by
    rcases found : w.cluster.slots.find? job with _ | s
    · rfl
    · obtain ⟨r', stored', tells⟩ := orderly.attended.of_slot found
      obtain rfl := stored.unique stored'
      have told : s.outcome ≠ none := by
        intro none_yet
        rw [none_yet] at tells
        simp [show r.status = .running from tells, JobStatus.isFinished] at finished
      obtain ⟨_, _, _, _, _, closed⟩ := closed_of_run executor found told
      simp [show w.cluster.store.accumulators.find? job = _ from closed.row] at row
  rw [Cluster.toldCounters_eq, free, Cluster.findRecord_of_stores valid stored]
  simp only [Store.getAccumulators, Store.get, row]
  rfl

/-- **A publication that is cut after its first step** leaves the record only. -/
lemma run_cutClosing {t : RunTask} {slot : RunSlot} {result : WorkResult} {execution : ℕ}
    (found : w.cluster.findTask execution = some t) (phase : t.phase = .working (.finish result))
    (own : w.cluster.slots.find? t.job = some slot) (same : slot.execution = t.execution)
    (calm : slot.interrupted = false) {r : Record} (stored : w.cluster.Stores t.job r) (now : UInt64) :
    let v := w.turn (.tick (.resolve execution))
    let cut := Turn.cut (.publish execution now) 1
    cut.Posts v.cluster t.job execution slot
      ∧ (v.turn cut).cluster.store
        = w.cluster.store.putJob (r.finish (Operation.outcomeOf false (some result)) now.toNat) := by
  intro v cut
  have resolved : v.cluster = w.cluster.replaceTask { t with phase := .resolved (some result) } :=
    Cluster.resolved_finished found phase own same calm
  have steps : v.cluster.publication execution now.toNat = _ :=
    Cluster.publication_finished found phase own same calm stored now.toNat
  constructor
  · have here := w.cluster.findTask_replaceTask (u := { t with phase := .resolved (some result) }) found
      (show t.execution = execution from Cluster.findTask_execution found)
    rw [← resolved] at here
    refine ⟨.publish here rfl rfl ?_ now, Nat.one_pos⟩
    rw [resolved]
    exact own
  · show (v.cluster.after ((v.cluster.publication execution now.toNat).take 1)).store = _
    rw [steps, resolved]
    rfl

/-- A job that counts to one, and whose publication is cut: it has completed, and its counters are
gone. -/
theorem cut_publication_loses_counters :
    let early := openingTurns "a" 0 ++ [.tick (.resolve 0)]
    let cut := Turn.cut (.publish 0 0) 1
    let w := (World.start (setting (.long 1))).run (early ++ [cut])
    cut.Posts ((World.start (setting (.long 1))).run early).cluster "a" 0
        ⟨0, false, none, Accumulators.write .empty [.set "x" (.long 1)]⟩
      ∧ (∃ r, w.cluster.Stores "a" r ∧ r.status = .completed)
      ∧ (∀ now, w.cluster.toldCounters "a" now = .answered (.ok (.counters .empty)))
      ∧ w.cluster.store.Equipped "a" := by
  intro early cut w
  obtain ⟨task, own, running⟩ := run_opening_setting (.long 1)
  have second : (World.start (setting (.long 1))).run early
      = ((World.start (setting (.long 1))).run (openingTurns "a" 0)).turn (.tick (.resolve 0)) :=
    run_concat ..
  have last : w = ((World.start (setting (.long 1))).run early).turn cut := run_concat ..
  obtain ⟨posts, store⟩ := run_cutClosing task rfl own rfl rfl running 0
  rw [← second] at posts store
  rw [← last] at store
  set r := (Cluster.openRecord "a" (0 : UInt64).toNat).finish
    (Operation.outcomeOf false (some (.ok ()))) (0 : UInt64).toNat
  have sound : r.Sound "a" := (Cluster.openRecord_sound "a" 0).finish (le_refl 3) .completed 0
  have stored : w.cluster.Stores "a" r := by
    rw [Cluster.Stores, store]
    exact (Store.getJob_putJob _ sound.fits "a").trans (if_pos rfl)
  obtain ⟨ended, equipped⟩ := registry_after_crash (setting (.long 1)) (early ++ [cut]) stored
  obtain ⟨before, t, after, execution, slot, last_turn, told⟩ := ended rfl
  have unfinished : ∀ s, ((World.start (setting (.long 1))).run early).cluster.Stores "a" s →
      s.status.isFinished = false := by
    intro s here
    rw [second] at here
    have same := running.unique ((congrArg (fun s : Store => s.getJob "a") (Cluster.resolved_store _ 0)).symm.trans here)
    exact same ▸ rfl
  have row : w.cluster.store.accumulators.find? "a" = none := by
    rw [store, Store.putJob_accumulators]
    by_contra some_row
    obtain ⟨s, stored', finished⟩ :=
      (ended_run (setting (.long 1)) (openingTurns "a" 0) "a").1 (Option.isSome_iff_ne_none.mpr some_row)
    obtain rfl := running.unique stored'
    simp [Cluster.openRecord, Record.advance, JobStatus.isFinished] at finished
  have breaks : t.breaksOff = true := by
    by_contra whole
    have left := row.symm.trans last_turn.row
    rw [if_neg whole] at left
    simp at left
  -- No other turn is cut.
  have here : early = before := by
    have whole : t ∉ early := by
      rintro member
      have : ∀ u ∈ early, u.breaksOff = false := by
        simp [early, openingTurns, Cluster.openingTicks, Cluster.openingRequests, Turn.breaksOff]
      simp [this t member] at breaks
    exact ((List.append_cons_inj_of_notMem whole List.not_mem_nil).mp last_turn.parts).1
  exact ⟨posts, ⟨r, stored, rfl⟩, told breaks (here ▸ unfinished), equipped (by decide)⟩

end World

end ControlPlane
