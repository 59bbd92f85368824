import Mathlib
import ControlPlane.Proofs.Cluster.Destroy
import ControlPlane.Proofs.Registry.Graphs

/-!
# Which accepted graphs can be started

To submit a graph is only to write it, and to start it is to read it, at any later time.  As long as
nobody else calls for the job, its rows stay as they are, whatever else the cluster does and however often
it is restarted.  So what becomes of an accepted graph is decided by the graph alone: it is handed to the
executor as it was submitted if it comes back from its row, and otherwise it is not.

* `Action.perform_sameRows`, `World.Orderly.keeps_rows` — one step, and a whole run.
* `Cluster.StartsWith` — a start that is accepted, and that hands over a given graph.
* `World.start_hands_graph_iff` — the statement about runs.
* `Json.brackets` — the bodies of the smallest graphs that are accepted and never start.
-/

namespace ControlPlane

/-! ## Rows that stay -/

/-- Insertions under other names leave a name alone. -/
lemma Table.find?_insertMany_of_ne {α : Type} (t : Table α) {pairs : List (String × α)} {name : String}
    (others : ∀ p ∈ pairs, p.1 ≠ name) : (t.insertMany pairs).find? name = t.find? name := by
  unfold insertMany
  induction pairs generalizing t with
  | nil => rfl
  | cons p rest ih =>
      rw [List.foldl_cons, ih _ fun q member => others q (List.mem_cons_of_mem p member), find?_insert,
        if_neg (others p List.mem_cons_self)]

/-- **The rows of a job stay** when a step neither writes about the job nor removes it. -/
lemma Action.perform_sameRows {a : Action} {job : String} (valid : Job.isName job = true)
    (named : a.Named) (avoids : a.Avoids job) (kept : a ≠ .purge job) (c : Cluster) :
    Store.SameRows job c.store (a.perform c).2.store := by
  cases a
  case putJob r =>
    refine ⟨?_, rfl, rfl, fun name => rfl⟩
    simp [perform, Store.putJob, show r.name ≠ job from avoids]
  case putResources key rs =>
    refine ⟨rfl, rfl, rfl, fun name => ?_⟩
    refine Table.find?_insertMany_of_ne _ fun p member same => ?_
    obtain ⟨r, -, rfl⟩ := List.mem_map.mp member
    exact avoids.1 (resourceKey_inj named valid same).1
  case putGraph key g =>
    refine ⟨rfl, ?_, rfl, fun name => rfl⟩
    simp [perform, Store.putGraph, show key ≠ job from avoids]
  case putAccumulators key counters =>
    refine ⟨rfl, rfl, ?_, fun name => rfl⟩
    simp [perform, Store.putAccumulators, show key ≠ job from avoids]
  case purge key =>
    have other : key ≠ job := by
      rintro rfl
      exact kept rfl
    have foreign : ∀ name, Store.isOwned key (resourceKey job name) = false := by
      intro name
      by_contra owned
      obtain ⟨name', same⟩ := resourceKey_of_isOwned (eq_true_of_ne_false owned)
      exact other (resourceKey_inj valid named same).1.symm
    constructor <;> intros <;> simp [perform, Store.purge, other.symm, foreign]
  all_goals simpa [perform, Cluster.launch, Cluster.requestInterrupt,
    Cluster.setOutcome_eq_modifySlot] using Store.SameRows.refl job c.store

lemma Cluster.after_sameRows {job : String} (valid : Job.isName job = true) {actions : List Action}
    (named : ∀ a ∈ actions, a.Named) (avoids : ∀ a ∈ actions, a.Avoids job)
    (kept : .purge job ∉ actions) (c : Cluster) :
    Store.SameRows job c.store (c.after actions).store := by
  induction actions generalizing c with
  | nil => exact .refl job c.store
  | cons a rest ih =>
      have first := Action.perform_sameRows valid (named a List.mem_cons_self)
        (avoids a List.mem_cons_self) (List.ne_of_not_mem_cons kept).symm c
      exact first.trans (ih (fun b member => named b (List.mem_cons_of_mem a member))
        (fun b member => avoids b (List.mem_cons_of_mem a member)) (List.not_mem_of_not_mem_cons kept) _)

namespace World

variable {w : World} {job : String}

/-- One turn, for a job that has not been started. -/
lemma Orderly.keeps_rows_turn (h : w.Orderly) (valid : Job.isName job = true) {r : Record}
    (stored : w.cluster.Stores job r) (early : r.status.rank < 3) {t : Turn} (other : t.Avoids job) :
    Store.SameRows job w.cluster.store (w.turn t).cluster.store := by
  obtain ⟨actions, d, eq, store, -, takes⟩ := h.turn_eq t
  have avoids := takes.avoids h.lawful.sound (h.attended.free_of_rank stored early) other
  have kept : .purge job ∉ actions := fun member => other.not_destroys (takes.destroys member)
  rw [eq]
  show Store.SameRows job w.cluster.store d.store
  rw [store]
  exact Cluster.after_sameRows valid takes.named avoids kept w.cluster

/-- **The rows of a job that waits for its start** stay as long as nobody calls for it. -/
theorem Orderly.keeps_rows (h : w.Orderly) (valid : Job.isName job = true) {r : Record}
    (stored : w.cluster.Stores job r) (early : r.status.rank < 3) {turns : List Turn}
    (others : ∀ t ∈ turns, t.Avoids job) :
    Store.SameRows job w.cluster.store (w.run turns).cluster.store := by
  induction turns generalizing w with
  | nil => exact .refl job w.cluster.store
  | cons t turns ih =>
      have first := h.keeps_rows_turn valid stored early (others t List.mem_cons_self)
      have still : (w.turn t).cluster.Stores job r := first.getJob.trans stored
      exact first.trans (ih (h.turn t) still fun u member => others u (List.mem_cons_of_mem t member))

end World

/-! ## The start of an accepted graph -/

namespace Cluster

/-- **The start of a job is accepted**, and the executor is handed a graph. -/
def StartsWith (c : Cluster) (job : String) (now : ℕ) (g : Graph) : Prop :=
  (c.issue now job .start).1 = .answered (.ok .done)
    ∧ ∃ context, .launch context ∈ Call.start.actions c job now ∧ context.graph = g

variable {c : Cluster} {job : String}

/-- What it takes that a graph is accepted. -/
lemma submit_accepted_iff (c : Cluster) (job : String) (g : Graph) (now : ℕ) :
    (c.issue now job (.submit g)).1 = .answered (.ok .done) ↔
      ∃ r resources, c.findRecord job = .ok r ∧ r.status = .deployed
        ∧ c.store.listResources job = .ok resources ∧ Operation.missingReferences g resources = [] := by
  rw [issue_answer c now job (by simp), Call.operation, Operation.plan_map, Operation.plan_submit]
  rcases c.findRecord job with e | r
  · simp [Except.map]
  · by_cases status : r.status = .deployed
    · rcases c.store.listResources job with e | resources
      · simp [status, Except.map]
      · by_cases complete : Operation.missingReferences g resources = [] <;>
          simp [status, complete, Except.map]
    · simp [status, Except.map]

/-- **A submitted job starts with a graph** exactly when this graph is read from its row. -/
lemma startsWith_iff {r : Record} {resources : List Resource} (found : c.findRecord job = .ok r)
    (fresh : r.executionStarted = false) (status : r.status = .submitted)
    (listed : c.store.listResources job = .ok resources) (now : ℕ) (g : Graph) :
    c.StartsWith job now g ↔ c.store.getGraph job = .ok (some g) := by
  rw [StartsWith, issue_answer c now job (by simp), Call.actions_eq, Call.operation,
    Operation.plan_map]
  simp only [Operation.plan_start, found, fresh, status, listed, if_true, Bool.false_eq_true, if_false]
  rcases c.store.getGraph job with e | _ | h <;> simp [Except.map]

end Cluster

namespace World

/-- **What becomes of an accepted graph.**  Take any run from an empty store, and a graph that is then
accepted for a job.  After any further turns of which none calls for the job, restarts among them, the
job is started with this graph exactly when the graph comes back from its row. -/
theorem start_hands_graph_iff (executor : Executor) (turns between : List Turn) {job : String}
    {g : Graph} (proper : g.body.Proper) (now later : UInt64)
    (accepted : (((World.start executor).run turns).cluster.issue now.toNat job (.submit g)).1
      = .answered (.ok .done))
    (others : ∀ t ∈ between, t.Avoids job) :
    let w := (World.start executor).run turns
    let v := (w.turn (.tick (.call ⟨job, .submit g, now, trivial⟩))).run between
    v.cluster.StartsWith job later.toNat g ↔ g.Readable := by
  intro w v
  obtain ⟨r, resources, found, status, listed, complete⟩ :=
    (w.cluster.submit_accepted_iff job g now.toNat).mp accepted
  have orderly : w.Orderly := (Orderly.start executor).run turns
  have valid := Cluster.isName_of_findRecord found
  have sound := orderly.lawful.sound.record (Cluster.stores_of_findRecord found)
  set s := r.advance .submitted now.toNat with submitted
  have early : r.status.rank < 3 := by simp [status, JobStatus.rank]
  have sound' : s.Sound job := sound.advance .submitted early (by decide) now
  have waits : s.status.rank < 3 := by simp [submitted, Record.advance, JobStatus.rank]
  -- What the store holds of the job after the submission.
  set u := w.turn (.tick (.call ⟨job, .submit g, now, trivial⟩)) with after
  have store : u.cluster.store = (w.cluster.store.putGraph job g).putJob s := by
    rw [after, turn_call]
    show (w.cluster.after ((Call.submit g).actions w.cluster job now.toNat)).store = _
    rw [Call.actions, Cluster.plan_submit_complete found status listed complete]
    rfl
  have stored : u.cluster.Stores job s := by
    rw [Cluster.Stores, store, Store.getJob_putJob _ sound'.fits, if_pos sound'.name]
  have graph : u.cluster.store.getGraph job = .ok (some g) ↔ g.Readable := by
    rw [store, ← w.cluster.store.getGraph_putGraph_iff job proper]
    rfl
  have listed' : u.cluster.store.listResources job = .ok resources := by
    rw [store, ← listed]
    rfl
  -- It stays there.
  have same := (orderly.turn (.tick (.call ⟨job, .submit g, now, trivial⟩))).keeps_rows valid stored waits
    others
  have found' : v.cluster.findRecord job = .ok s :=
    Cluster.findRecord_of_stores valid (same.getJob.trans stored)
  rw [Cluster.startsWith_iff found' (sound'.not_started waits) rfl
    (same.listResources.trans listed'), same.getGraph, graph]

end World

/-! ## Graphs that are too deep -/

namespace Json

/-- An empty array in `n` more brackets. -/
def brackets : ℕ → Value
  | 0 => .array []
  | n + 1 => .array [brackets n]

lemma brackets_proper (n : ℕ) : (brackets n).Proper := by
  induction n with
  | zero => trivial
  | succ n ih => exact ⟨ih, trivial⟩

lemma depth_brackets (n : ℕ) : (brackets n).depth = n + 1 := by
  induction n with
  | zero => rfl
  | succ n ih => simp [brackets, Value.depth, itemsDepth, ih]

lemma brackets_allNumbers (P : Number → Prop) (n : ℕ) : (brackets n).AllNumbers P := by
  induction n with
  | zero => trivial
  | succ n ih => exact ⟨ih, trivial⟩

end Json

/-- Of these graphs the ones with fewer than `Json.maxDepth` brackets come back. -/
lemma Graph.readable_brackets (n : ℕ) :
    (Graph.new (Json.brackets n)).Readable ↔ n + 1 < Json.maxDepth := by
  rw [Readable, Graph.new, Json.depth_brackets, and_iff_left (Json.brackets_allNumbers _ n)]

namespace World

/-- A job that is registered and deployed without resources has a graph without references
accepted. -/
lemma accepted_after_deploy {w : World} {job : String} (missing : w.cluster.Lacks job)
    (valid : Job.isName job = true) (none_yet : w.cluster.store.listResources job = .ok [])
    {config : JobConfig} (fits : config.Fits) (now : UInt64) (body : Json.Value) :
    ((w.run [.tick (.call ⟨job, .register config, now, fits⟩),
      .tick (.call ⟨job, .deploy [], now, trivial⟩)]).cluster.issue now.toNat job
        (.submit (Graph.new body))).1 = .answered (.ok .done) := by
  set r := Record.new job config now.toNat with fresh
  have first : w.turn (.tick (.call ⟨job, .register config, now, fits⟩)) = w.perform [.putJob r] := by
    rw [turn_call]
    exact congrArg (fun p => w.perform p.2)
      (Cluster.plan_register_of_lacks missing valid config now.toNat)
  have registered : (w.perform [.putJob r]).cluster.findRecord job = .ok r :=
    w.cluster.findRecord_after_register valid fits now
  have second : (w.perform [.putJob r]).turn (.tick (.call ⟨job, .deploy [], now, trivial⟩))
      = (w.perform [.putJob r]).perform [.putResources job [], .putJob (r.advance .deployed now.toNat)] := by
    rw [turn_call]
    show _ = (w.perform [.putJob r]).perform _
    refine congrArg _ ?_
    rw [Request.actions, Call.actions_eq]
    simp only [Operation.plan_deploy, registered]
    rfl
  have deployed : (r.advance .deployed now.toNat).Sound job :=
    (Record.Sound.ofNew fits now).advance .deployed (Nat.zero_lt_succ 2) (by decide) now
  have stored := Store.getJob_putJob ((w.perform [.putJob r]).cluster.store.putResources job [])
    deployed.fits job
  rw [if_pos deployed.name] at stored
  rw [run_cons, run_cons, run_nil, first, second, Cluster.submit_accepted_iff]
  refine ⟨r.advance .deployed now.toNat, [], ?_, rfl, none_yet, rfl⟩
  exact Cluster.findRecord_of_stores valid stored

/-- A job whose graph has one bracket too many: it is accepted, and is not started. -/
theorem deep_graph_is_not_started :
    let register : Turn := .tick (.call ⟨"a", .register Cluster.plainConfig, 0, Cluster.plainConfig_fits⟩)
    let deploy : Turn := .tick (.call ⟨"a", .deploy [], 0, trivial⟩)
    let w := (World.start acknowledge).run [register, deploy]
    let g := Graph.new (Json.brackets 126)
    let v := (w.turn (.tick (.call ⟨"a", .submit g, 0, trivial⟩))).run [.tick .restart]
    (w.cluster.issue (0 : UInt64).toNat "a" (.submit g)).1 = .answered (.ok .done)
      ∧ ¬v.cluster.StartsWith "a" (0 : UInt64).toNat g := by
  intro register deploy w g v
  have missing : (World.start acknowledge).cluster.Lacks "a" := rfl
  have accepted := accepted_after_deploy missing (by decide) rfl Cluster.plainConfig_fits 0
    (Json.brackets 126)
  have starts := start_hands_graph_iff acknowledge [register, deploy] [.tick .restart]
    (Json.brackets_proper 126) 0 0 accepted (by simp [Turn.Avoids, Tick.Avoids])
  refine ⟨accepted, ?_⟩
  rw [show v.cluster.StartsWith "a" (0 : UInt64).toNat g ↔ _ from starts, Graph.readable_brackets]
  decide

end World

end ControlPlane
