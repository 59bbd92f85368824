import Mathlib
import ControlPlane.Proofs.Cluster.Errands
import ControlPlane.Proofs.Cluster.Progress
import ControlPlane.Proofs.Cluster.Stale

/-!
# What is left of a job that has been destroyed

The record, the graph, the counters and the slot of a job are gone when it has been destroyed.  Two things
may be left.  A resource with a colon in its name stays: a resource comes with any name, and only the clients
that build resources refuse a colon.  And a task that has resolved stays: it waits to publish, and nothing
stops it any more.

* `Step.Deploys` — a step that stores a resource under a name, for a job.
* `World.Recalls.run` — a row with a colon in the name of its resource is there exactly when there has
  been such a step.
* `World.Clear` — a run that has nothing to do with a job leaves no row of it, and no task.
* `Cluster.shows_redeploy` — a resource that is left shows as soon as the job is deployed again.
* `Cluster.record_after_late_task` — a task that is left shows when the job has been started again.
* `World.destroy_leaves_nothing_iff` — the statement about runs.
-/

namespace ControlPlane

/-! ## Steps and the rows of a job -/

/-- A step that stores a resource of a job under a name. -/
def Step.Deploys (job name : String) (s : Step) : Prop :=
  ∃ rs, s.action = .putResources job rs ∧ ∃ r ∈ rs, r.name = name

namespace Action

/-- A step whose rows of resources, if it touches any, belong to a job with a proper name. -/
def Named : Action → Prop
  | putResources job _ | purge job => Job.isName job = true
  | _ => True

/-- A step that writes nothing about a job into the store. -/
def Avoids (job : String) : Action → Prop
  | putJob r => r.name ≠ job
  | putResources key _ => key ≠ job ∧ Job.isName key = true
  | putGraph key _ | putAccumulators key _ => key ≠ job
  | _ => True

/-- **A row with a colon in the name of its resource** is there after a step if it was there before,
or if the step stores it. -/
lemma perform_colon_row {a : Action} (named : a.Named) (c : Cluster) {job name : String}
    (valid : Job.isName job = true) (colon : ':' ∈ name.toList) :
    ((a.perform c).2.store.resources.find? (resourceKey job name)).isSome = true
      ↔ (c.store.resources.find? (resourceKey job name)).isSome = true
        ∨ Step.Deploys job name ⟨c, a⟩ := by
  cases a
  case putResources key rs =>
    simp only [perform, Store.putResources, Table.isSome_insertMany, List.mem_map]
    refine or_congr_right ⟨?_, ?_⟩
    · rintro ⟨p, ⟨r, member, rfl⟩, same⟩
      obtain ⟨rfl, rfl⟩ := resourceKey_inj named valid same
      exact ⟨rs, rfl, r, member, rfl⟩
    · rintro ⟨rs', eq, r, member, rfl⟩
      obtain ⟨rfl, rfl⟩ : key = job ∧ rs = rs' := by simpa using eq
      exact ⟨_, ⟨r, member, rfl⟩, rfl⟩
  case purge key =>
    have kept : Store.isOwned key (resourceKey job name) = false := by
      by_contra owned
      obtain ⟨other, clear, same⟩ := resourceOwner_eq_some_iff.mp
        (of_decide_eq_true (eq_true_of_ne_false owned))
      obtain ⟨-, rfl⟩ := resourceKey_inj valid named same
      exact clear colon
    simp [perform, Store.purge, kept, Step.Deploys]
  all_goals simp [perform, Step.Deploys, Store.putJob, Store.putGraph, Store.putAccumulators,
    Cluster.launch, Cluster.requestInterrupt, Cluster.setOutcome_eq_modifySlot]

/-- **A job without rows** gets none by a step that avoids it. -/
lemma perform_clear {a : Action} {c : Cluster} {job : String} (valid : Job.isName job = true)
    (clear : Store.SameRows job .empty c.store) (avoids : a.Avoids job) :
    Store.SameRows job .empty (a.perform c).2.store := by
  cases a
  case putJob r =>
    refine ⟨?_, clear.graph, clear.accumulators, clear.resource⟩
    simpa [perform, Store.putJob, show r.name ≠ job from avoids] using clear.record
  case putResources key rs =>
    refine ⟨clear.record, clear.graph, clear.accumulators, fun name => ?_⟩
    refine Option.not_isSome_iff_eq_none.mp fun left => ?_
    simp only [perform, Store.putResources, Table.isSome_insertMany, List.mem_map] at left
    rcases left with before | ⟨p, ⟨r, member, rfl⟩, same⟩
    · simp [clear.resource name, Store.empty] at before
    · exact avoids.1 (resourceKey_inj avoids.2 valid same).1
  case putGraph key g =>
    refine ⟨clear.record, ?_, clear.accumulators, clear.resource⟩
    simpa [perform, Store.putGraph, show key ≠ job from avoids] using clear.graph
  case putAccumulators key a =>
    refine ⟨clear.record, clear.graph, ?_, clear.resource⟩
    simpa [perform, Store.putAccumulators, show key ≠ job from avoids] using clear.accumulators
  case purge key => exact clear.purge key
  all_goals simpa [perform, Cluster.launch, Cluster.requestInterrupt,
    Cluster.setOutcome_eq_modifySlot] using clear

end Action

lemma Cluster.after_clear {c : Cluster} {job : String} (valid : Job.isName job = true)
    (clear : Store.SameRows job .empty c.store) {actions : List Action}
    (avoids : ∀ a ∈ actions, a.Avoids job) :
    Store.SameRows job .empty (c.after actions).store := by
  induction actions generalizing c with
  | nil => exact clear
  | cons a rest ih =>
      refine ih ?_ fun b member => avoids b (List.mem_cons_of_mem a member)
      exact Action.perform_clear valid clear (avoids a List.mem_cons_self)

/-! ## Turns and the rows of a job -/

/-- A tick that is no call on a job. -/
def Tick.Avoids (job : String) : Tick → Prop
  | .call q => q.job ≠ job
  | _ => True

/-- A turn that is no call on a job. -/
def Turn.Avoids (job : String) : Turn → Prop
  | .tick t | .cut t _ => t.Avoids job

lemma Turn.Avoids.not_destroys {job : String} {t : Turn} (h : t.Avoids job) : ¬t.Destroys job := by
  have tick : ∀ {t : Tick}, t.Avoids job → ¬t.Destroys job := by
    intro t other destroys
    cases t with
    | call q => exact other destroys.1
    | _ => exact destroys
  cases t with
  | tick t => exact tick h
  | cut t n => exact fun destroys => tick h destroys.1

namespace Cluster

variable {c d : Cluster} {job key : String}

lemma Effect.named {call : Call} {actions : List Action} (effect : c.Effect job call actions) :
    ∀ a ∈ actions, a.Named := by
  cases effect with
  | deploy valid stored status rs now => simpa [Action.Named] using valid
  | destroy valid => simpa [Action.Named] using valid
  | nothing | create | configure | submit | start | interrupt => simp [Action.Named]

lemma Reports.named {execution now : ℕ} {actions : List Action} (reports : c.Reports execution now actions) :
    ∀ a ∈ actions, a.Named := by
  cases reports <;> simp [Action.Named, outcomeSteps]

/-- A call on another job writes nothing about this one. -/
lemma Effect.avoids {call : Call} {actions : List Action} (effect : c.Effect key call actions)
    (sound : c.Sound) (other : key ≠ job) : ∀ a ∈ actions, a.Avoids job := by
  have name : ∀ {r}, c.Stores key r → r.name ≠ job := by
    intro r stored
    rw [(sound.record stored).name]
    exact other
  cases effect with
  | nothing => simp
  | create missing fits now => simpa [Action.Avoids, Record.new] using other
  | configure stored status fits now => simpa [Action.Avoids] using name stored
  | deploy valid stored status rs now =>
      simpa [Action.Avoids, Record.advance] using ⟨⟨other, valid⟩, name stored⟩
  | submit stored status graph now =>
      simpa [Action.Avoids, Record.advance] using ⟨other, name stored⟩
  | start stored status fresh graph resources now =>
      simpa [Action.Avoids, Record.advance] using name stored
  | interrupt found unfinished => simp [Action.Avoids]
  | destroy valid => simp [Action.Avoids]

/-- A publication writes nothing about a job without a slot. -/
lemma Reports.avoids {execution now : ℕ} {actions : List Action} (reports : c.Reports execution now actions)
    (sound : c.Sound) (free : c.slots.find? job = none) : ∀ a ∈ actions, a.Avoids job := by
  cases reports with
  | nothing => simp
  | @outcome t result slot r found phase there stored tells =>
      have other : t.job ≠ job := by
        rintro rfl
        rw [free] at there
        simp at there
      have name : (r.finish (Operation.outcomeOf slot.interrupted result) now).name ≠ job := by
        simpa [Record.finish, Record.advance, (sound.record stored).name] using other
      simpa [outcomeSteps, Action.Avoids] using ⟨name, other⟩

end Cluster

section Takes

variable {c : Cluster} {actions : List Action} {job : String}

lemma Tick.Takes.named {t : Tick} (takes : t.Takes c actions) : ∀ a ∈ actions, a.Named := by
  cases takes with
  | call effect => exact effect.named
  | publish reports => exact reports.named
  | nothing => simp

lemma Tick.Takes.avoids {t : Tick} (takes : t.Takes c actions) (sound : c.Sound)
    (free : c.slots.find? job = none) (other : t.Avoids job) : ∀ a ∈ actions, a.Avoids job := by
  cases takes with
  | call effect => exact effect.avoids sound other
  | publish reports => exact reports.avoids sound free
  | nothing => simp

lemma Turn.Takes.named {t : Turn} (takes : t.Takes c actions) : ∀ a ∈ actions, a.Named := by
  cases takes with
  | tick takes => exact takes.named
  | cut takes n => exact fun a member => takes.named a (List.mem_of_mem_take member)

lemma Turn.Takes.avoids {t : Turn} (takes : t.Takes c actions) (sound : c.Sound)
    (free : c.slots.find? job = none) (other : t.Avoids job) : ∀ a ∈ actions, a.Avoids job := by
  cases takes with
  | tick takes => exact takes.avoids sound free other
  | cut takes n => exact fun a member => takes.avoids sound free other a (List.mem_of_mem_take member)

end Takes

/-! ## Runs and the rows of a job -/

namespace World

variable {w : World} {job name : String}

lemma perform_keeps {P : World → Prop}
    (step : ∀ {w : World} {a : Action}, P w → a.Named → P (w.perform [a]))
    {actions : List Action} (named : ∀ a ∈ actions, a.Named) (h : P w) : P (w.perform actions) := by
  induction actions generalizing w with
  | nil => rwa [perform_nil]
  | cons a rest ih =>
      rw [perform_cons]
      exact ih (fun b member => named b (List.mem_cons_of_mem a member)) (step h (named a List.mem_cons_self))

/-- **What depends on the past and the store, and is kept by every named step**, is kept by runs. -/
theorem Orderly.run_keeps {P : World → Prop}
    (of_store : ∀ {w v : World}, P w → v.past = w.past → v.cluster.store = w.cluster.store → P v)
    (step : ∀ {w : World} {a : Action}, P w → a.Named → P (w.perform [a]))
    (orderly : w.Orderly) (h : P w) (turns : List Turn) : P (w.run turns) := by
  induction turns generalizing w with
  | nil => exact h
  | cons t turns ih =>
      refine ih (orderly.turn t) ?_
      obtain ⟨actions, d, eq, store, -, takes⟩ := orderly.turn_eq t
      rw [eq]
      exact of_store (perform_keeps step takes.named h) rfl store

/-- **A row of a resource** is there exactly when a step has stored it. -/
def Recalls (w : World) (job name : String) : Prop :=
  (w.cluster.store.resources.find? (resourceKey job name)).isSome = true
    ↔ ∃ s ∈ w.past, s.Deploys job name

namespace Recalls

lemma of_store (h : w.Recalls job name) {v : World} (past : v.past = w.past)
    (store : v.cluster.store = w.cluster.store) : v.Recalls job name := by
  unfold Recalls
  rw [past, store]
  exact h

lemma step (h : w.Recalls job name) (valid : Job.isName job = true) (colon : ':' ∈ name.toList)
    {a : Action} (named : a.Named) : (w.perform [a]).Recalls job name := by
  have past : (w.perform [a]).past = w.past ++ [⟨w.cluster, a⟩] := rfl
  have row := Action.perform_colon_row named w.cluster valid colon
  rw [show _ ↔ _ from h] at row
  unfold Recalls
  rw [past]
  refine row.trans ?_
  simp [or_and_right, exists_or]

/-- **Rows with a colon in the name of the resource** are never removed. -/
theorem run (h : w.Recalls job name) (orderly : w.Orderly) (valid : Job.isName job = true)
    (colon : ':' ∈ name.toList) (turns : List Turn) : (w.run turns).Recalls job name :=
  orderly.run_keeps (P := fun w => w.Recalls job name)
    (fun recalls past store => recalls.of_store past store)
    (fun recalls named => recalls.step valid colon named) h turns

end Recalls

/-- No row in the store is one of the job, and no task. -/
structure Clear (w : World) (job : String) : Prop where
  rows : Store.SameRows job .empty w.cluster.store
  tasks : ∀ t ∈ w.cluster.tasks, t.job ≠ job

namespace Clear

lemma lacks (h : w.Clear job) : w.cluster.Lacks job := h.rows.getJob

/-- A job without a record has no slot. -/
lemma free (h : w.Clear job) (orderly : w.Orderly) : w.cluster.slots.find? job = none :=
  orderly.attended.free_of_lacks h.lacks

/-- A tick that is no call on the job starts no task of it. -/
lemma tasks_react (h : w.Clear job) {t : Tick} (other : t.Avoids job) (orderly : w.Orderly) :
    ∀ u ∈ (w.cluster.react t).tasks, u.job ≠ job := by
  rintro u member rfl
  rcases (orderly.attended.descends member).origin with ⟨v, before, own, -⟩ | ⟨q, rfl, own, -⟩
  · exact h.tasks v before own
  · exact other own.symm

/-- **A turn that has nothing to do with a job** leaves no row of it, and no task. -/
lemma turn (h : w.Clear job) (orderly : w.Orderly) (valid : Job.isName job = true) {t : Turn}
    (other : t.Avoids job) : (w.turn t).Clear job := by
  constructor
  case rows =>
    obtain ⟨actions, d, eq, store, -, takes⟩ := orderly.turn_eq t
    rw [eq]
    show Store.SameRows job .empty d.store
    rw [store]
    exact Cluster.after_clear valid h.rows (takes.avoids orderly.lawful.sound (h.free orderly) other)
  case tasks =>
    cases t with
    | tick t => exact h.tasks_react other orderly
    | cut t n => simp [World.turn, onCluster, Cluster.restart]

theorem run (h : w.Clear job) (orderly : w.Orderly) (valid : Job.isName job = true)
    {turns : List Turn} (others : ∀ t ∈ turns, t.Avoids job) : (w.run turns).Clear job := by
  induction turns generalizing w with
  | nil => exact h
  | cons t turns ih =>
      exact ih (h.turn orderly valid (others t List.mem_cons_self)) (orderly.turn t) fun u member =>
        others u (List.mem_cons_of_mem t member)

lemma start (executor : Executor) (job : String) : (World.start executor).Clear job :=
  ⟨⟨rfl, rfl, rfl, fun _ => rfl⟩, by simp [World.start, Cluster.ofStore]⟩

end Clear

end World

/-! ## A job that is registered and deployed once more -/

namespace Cluster

variable {c d : Cluster} {job : String}

/-- What a deployment of one resource is answered, by the row under the name of the resource. -/
def deployAnswer (c : Cluster) (job : String) (r : Resource) : Answer :=
  match c.store.getResource job r.name with
  | .error e => .error (.state e)
  | .ok none => .ok .done
  | .ok (some existing) =>
    if existing.sameContent r then .ok .done else .error (.resourceConflict job r.name)

/-- **A registered job gets a resource.** -/
lemma plan_deploy_of_registered {r : Record} (found : c.findRecord job = .ok r)
    (status : r.status = .registered) (x : Resource) (now : ℕ) :
    Operation.plan c (Call.operation job now (.deploy [x]))
      = (c.deployAnswer job x, match c.deployAnswer job x with
        | .ok _ => [.putResources job [x], .putJob (r.advance .deployed now)]
        | .error _ => []) := by
  simp only [Call.operation, Operation.plan_deploy, found, status, true_or, if_true,
    Operation.checkResources, Operation.plan_bind, Operation.plan_getResource, deployAnswer]
  rcases c.store.getResource job x.name with e | _ | existing
  · rfl
  · rfl
  · simp only [Except.mapError, after_nil]
    split_ifs <;> rfl

/-- A registration, and then the deployment of one resource. -/
def redeploy (r : Resource) : List Errand :=
  [.call (.register plainConfig) 0 plainConfig_fits, .call (.deploy [r]) 0 trivial]

/-- **A resource that is left** shows in the answer to the next deployment. -/
lemma shows_redeploy (missing : c.Lacks job) (valid : Job.isName job = true) (r : Resource) :
    c.shows job (redeploy r)
      = [.answer (some (.ok .done)), .answer (some (c.deployAnswer job r))] := by
  have register := plan_register_of_lacks missing valid plainConfig (0 : UInt64).toNat
  have registered := c.findRecord_after_register valid plainConfig_fits 0
  generalize eq : c.after [.putJob (Record.new job plainConfig (0 : UInt64).toNat)] = next
    at registered
  have same : next.deployAnswer job r = c.deployAnswer job r := by
    rw [← eq]
    rfl
  have first : c.issue (0 : UInt64).toNat job (.register plainConfig)
      = (.answered (.ok .done), next) := by
    refine Prod.ext ?_ ?_
    · rw [issue_answer c _ _ (by simp), register]
    · rw [issue_eq, Call.actions, register, eq]
  have second : (next.issue (0 : UInt64).toNat job (.deploy [r])).1
      = .answered (c.deployAnswer job r) := by
    rw [issue_answer next _ _ (by simp), plan_deploy_of_registered registered rfl, same]
  simp only [shows, redeploy, Visit.sights, Visit.act, first, second, Issued.poll]

/-- A row under the name of a resource leads to a failure, for some resource of that name. -/
lemma exists_deployAnswer_ne (c : Cluster) (job name : String)
    (left : (c.store.resources.find? (resourceKey job name)).isSome = true) :
    ∃ r : Resource, r.name = name ∧ c.deployAnswer job r ≠ .ok .done := by
  cases found : c.store.getResource job name with
  | error e =>
      refine ⟨⟨name, .data, .inline [], ""⟩, rfl, ?_⟩
      simp [deployAnswer, found]
  | ok row =>
      cases row with
      | none =>
          obtain ⟨row, here⟩ := Option.isSome_iff_exists.mp left
          unfold Store.getResource Store.get at found
          rw [here] at found
          cases decoded : Row.decode Resource.decoder row <;> simp [decoded, Except.map] at found
      | some existing =>
          refine ⟨⟨name, .data, .inline [], existing.digest ++ "0"⟩, rfl, ?_⟩
          have digest : existing.digest ≠ existing.digest ++ "0" := by
            intro same
            have := congrArg String.length same
            simp [String.length_append] at this
          have other : existing.sameContent ⟨name, .data, .inline [], existing.digest ++ "0"⟩
              = false := by
            simp [Resource.sameContent, digest]
          simp [deployAnswer, found, other]

lemma deployAnswer_of_clear (clear : Store.SameRows job .empty c.store) (r : Resource) :
    c.deployAnswer job r = .ok .done := by
  unfold deployAnswer
  rw [clear.getResource]
  rfl

/-- **A row that is left** can be seen. -/
lemma shows_ne_of_row (valid : Job.isName job = true) (missing : c.Lacks job)
    (clear : Store.SameRows job .empty d.store) {name : String}
    (left : (c.store.resources.find? (resourceKey job name)).isSome = true) :
    ∃ errands, c.shows job errands ≠ d.shows job errands := by
  obtain ⟨r, rfl, refused⟩ := c.exists_deployAnswer_ne job name left
  refine ⟨redeploy r, fun seen => refused ?_⟩
  rw [shows_redeploy missing valid, shows_redeploy clear.getJob valid, deployAnswer_of_clear clear] at seen
  simpa using seen

end Cluster

/-! ## A job that is started once more -/

namespace Visit

variable {v : Visit} {job : String}

/-- The visit after some errands. -/
def after (v : Visit) (job : String) (errands : List Errand) : Visit :=
  errands.foldl (fun v e => (v.act job e).2) v

lemma after_concat (v : Visit) (job : String) (errands : List Errand) (last : Errand) :
    v.after job (errands ++ [last]) = ((v.after job errands).act job last).2 := by
  simp [after]

/-- What is seen in the end. -/
lemma sights_concat (v : Visit) (job : String) (errands : List Errand) (last : Errand) :
    v.sights job (errands ++ [last])
      = v.sights job errands ++ [((v.after job errands).act job last).1] := by
  induction errands generalizing v with
  | nil => rfl
  | cons e rest ih => exact congrArg _ (ih _)

/-- Calls on the job, and the executions that they launch. -/
lemma after_calls (requests : List Request) (own : ∀ q ∈ requests, q.job = job) :
    let errands := requests.map fun q => Errand.call q.call q.now q.fits
    (v.after job errands).cluster = v.cluster.play (requests.map .call)
      ∧ (v.after job errands).executions
        = v.executions ++ v.cluster.launched (v.cluster.play (requests.map .call))
      ∧ v.cluster.nextExecution ≤ (v.cluster.play (requests.map .call)).nextExecution := by
  induction requests generalizing v with
  | nil => simp [after, Cluster.play, Cluster.launched]
  | cons q rest ih =>
      obtain rfl := own q List.mem_cons_self
      set u := (v.act q.job (.call q.call q.now q.fits)).2
      obtain ⟨cluster, executions, later⟩ := ih (v := u) fun r member => own r (List.mem_cons_of_mem q member)
      have first : v.cluster.nextExecution ≤ u.cluster.nextExecution := by
        show _ ≤ (v.cluster.issue q.now.toNat q.job q.call).2.nextExecution
        rw [Cluster.issue_eq]
        exact Cluster.after_next_le ..
      refine ⟨cluster, executions.trans ?_, first.trans later⟩
      show (v.executions ++ v.cluster.launched u.cluster) ++ u.cluster.launched _ = _
      rw [List.append_assoc, Cluster.launched_append first later]
      rfl

end Visit

namespace Cluster

variable {c d : Cluster} {job : String}

/-- The job is registered and started once more; then the execution with number `0` publishes, and the record
is read. -/
def lateErrands (job : String) : List Errand :=
  (openingRequests job 0).map (fun q => .call q.call q.now q.fits) ++ [.publish 0 0]

/-- What the record says then, by the numbers of the tasks that were there before. -/
lemma shows_late (missing : c.Lacks job) (valid : Job.isName job = true)
    (none_yet : c.store.listResources job = .ok []) {e : ℕ} {rest : List ℕ}
    (executions : c.tasksFor job ++ [c.nextExecution] = e :: rest) :
    c.shows job (lateErrands job ++ [.record])
      = c.shows job (lateErrands job)
        ++ [.record (((c.opened job (0 : UInt64).toNat).react (.publish e 0)).store.getJob job)] := by
  have opened := play_openingTicks missing valid none_yet 0
  obtain ⟨cluster, numbers, -⟩ := Visit.after_calls (v := ⟨c, [], c.tasksFor job⟩)
    (openingRequests job 0) (show ∀ q ∈ openingRequests job 0, q.job = job by simp [openingRequests])
  rw [show (openingRequests job 0).map Tick.call = openingTicks job 0 from rfl, opened] at cluster numbers
  have launched : c.launched (c.opened job (0 : UInt64).toNat) = [c.nextExecution] := by
    simp [Cluster.launched, opened_nextExecution]
  rw [launched, executions] at numbers
  rw [shows, Visit.sights_concat, lateErrands]
  refine congrArg (fun r => _ ++ [Sight.record (Store.getJob (Cluster.store r) job)]) ?_
  rw [Visit.after_concat]
  simp only [Visit.act, numbers, cluster]
  rfl

/-- **A task that is left** can be seen. -/
lemma shows_ne_of_task (valid : Job.isName job = true) (attended : c.Attended)
    (rows : Store.SameRows job .empty c.store) {t : RunTask} (member : t ∈ c.tasks) (own : t.job = job)
    (numbered : d.Numbered) (clear : Store.SameRows job .empty d.store) (unattended : ∀ t ∈ d.tasks, t.job ≠ job) :
    ∃ errands, c.shows job errands ≠ d.shows job errands := by
  have listed : ∀ {e : Cluster}, Store.SameRows job .empty e.store → e.store.listResources job = .ok [] :=
    fun same => same.listResources
  obtain ⟨e, rest, executions⟩ : ∃ e rest, c.tasksFor job = e :: rest := by
    refine List.exists_cons_of_ne_nil fun none_left => ?_
    simp only [tasksFor, List.map_eq_nil_iff, List.filter_eq_nil_iff, decide_eq_true_eq] at none_left
    exact none_left t member own
  obtain ⟨u, here, number⟩ : ∃ u ∈ c.tasks.filter fun t => t.job = job, u.execution = e :=
    List.mem_map.mp (show e ∈ c.tasksFor job by simp [executions])
  obtain ⟨left, mine⟩ := List.mem_filter.mp here
  have none_there : d.tasksFor job = [] := by
    simpa [tasksFor, List.filter_eq_nil_iff] using unattended
  obtain ⟨-, r, -, -, late, ended⟩ :=
    attended.late_publication (attended.free_of_lacks rows.getJob) left (of_decide_eq_true mine) 0
  have running : (d.opened job (0 : UInt64).toNat).react (.publish d.nextExecution 0) = _ :=
    react_publish_opened fun t member => (numbered.tasks t member).ne
  refine ⟨lateErrands job ++ [.record], fun seen => ended ?_⟩
  rw [shows_late rows.getJob valid (listed rows)
      (show _ = e :: (rest ++ [c.nextExecution]) by simp [executions]),
    shows_late clear.getJob valid (listed clear) (show _ = [d.nextExecution] by simp [none_there]),
    ← number, show Store.getJob _ job = _ from late, running,
    show Store.getJob _ job = _ from opened_stores d job 0] at seen
  obtain rfl : r = openRecord job (0 : UInt64).toNat := by
    simpa using congrArg List.getLast? seen
  rfl

/-- Clusters with the same rows of a job and without executions of it are alike for the job. -/
lemma Alike.of_rows (left : c.Numbered) (right : d.Numbered) (executor : d.executor = c.executor)
    (store : Store.SameRows job c.store d.store) (freeLeft : c.slots.find? job = none)
    (freeRight : d.slots.find? job = none) : Alike job (fun _ _ => False) c d where
  left := left
  right := right
  executor := executor
  store := store
  slot := by
    rw [freeLeft, freeRight]
    exact .none
  old := False.elim
  inj := by simp
  published := False.elim
  tasks := False.elim
  own := False.elim
  latest := False.elim

end Cluster

/-! ## Destruction -/

namespace Cluster

variable {c : Cluster} {job : String}

/-- A job is destroyed whenever its name is one. -/
lemma issue_destroy_iff (c : Cluster) (now : ℕ) {job : String} :
    (c.issue now job .destroy).1 = .answered (.ok .done) ↔ Job.isName job = true := by
  rw [issue_answer c _ _ (by simp), Call.operation, Operation.plan_map, Operation.plan_destroy]
  split_ifs with valid <;> simp [Except.map, valid]

/-- Its slot goes, and what is stored of it. -/
lemma issue_destroy (valid : Job.isName job = true) (c : Cluster) (now : ℕ) :
    (c.issue now job .destroy).2 = c.after [.removeSlot job, .purge job] := by
  rw [issue_eq, Call.actions_destroy c now valid]

end Cluster

namespace World

/-- **What is left of a job that has been destroyed.**  Take any run from an empty store, and then
destroy a job.  There is no record of it, no graph and no counters, and it has no slot.  Of its tasks exactly
those are left that had resolved and not yet published, and of its resources exactly those that have ever been
stored under a name with a colon.

Take any other run, with the same executor in the end, in which no call was on the job.  Whatever is
done about the job from now on, and whatever its executions do, shows the same on both clusters, if and only
if no resource with a colon in its name has ever been stored for it and no task of it is left. -/
theorem destroy_leaves_nothing_iff (executor : Executor) (turns : List Turn) {job : String}
    {now : UInt64}
    (destroyed : (((World.start executor).run turns).cluster.issue now.toNat job .destroy).1
      = .answered (.ok .done)) :
    let w := (World.start executor).run turns
    let d := (w.cluster.issue now.toNat job .destroy).2
    (d.store.jobs.find? job = none ∧ d.store.graphs.find? job = none ∧
      d.store.accumulators.find? job = none ∧ d.slots.find? job = none) ∧
    (∀ t, t ∈ d.tasks ∧ t.job = job
      ↔ t ∈ w.cluster.tasks ∧ t.job = job ∧ Cluster.RunTask.isWorking t = false) ∧
    (∀ name, (d.store.resources.find? (resourceKey job name)).isSome = true
      ↔ ':' ∈ name.toList ∧ ∃ s ∈ w.past, s.Deploys job name) ∧
    ∀ (other : Executor) (others : List Turn), (∀ t ∈ others, t.Avoids job) →
      let fresh := ((World.start other).run others).cluster
      fresh.executor = d.executor →
      ((∀ errands, d.shows job errands = fresh.shows job errands) ↔
        (∀ s ∈ w.past, ∀ name, s.Deploys job name → ':' ∉ name.toList) ∧ ∀ t ∈ d.tasks, t.job ≠ job) := by
  intro w d
  have valid : Job.isName job = true := (w.cluster.issue_destroy_iff now.toNat).mp destroyed
  have orderly : w.Orderly := (Orderly.start executor).run turns
  have steps : d = w.cluster.after [.removeSlot job, .purge job] :=
    Cluster.issue_destroy valid w.cluster now.toNat
  have attended : d.Attended := by
    have goes_on := orderly.attended.react (.call ⟨job, .destroy, now, trivial⟩)
    rwa [Cluster.react_call, Request.actions, ← Cluster.issue_eq] at goes_on
  have store : d.store = (w.cluster.store.purge job).2 := by
    rw [steps, ← Cluster.removeSlot_store w.cluster job]
    rfl
  have free : d.slots.find? job = none := by
    rw [steps]
    simp [Action.perform_find?]
  have record : d.store.jobs.find? job = none := by simp [store, Store.purge]
  have graph : d.store.graphs.find? job = none := by simp [store, Store.purge]
  have accumulators : d.store.accumulators.find? job = none := by simp [store, Store.purge]
  have missing : d.Lacks job := by simp [Cluster.Lacks, Store.getJob, Store.get, record]
  have rows : ∀ name, (d.store.resources.find? (resourceKey job name)).isSome = true
      ↔ ':' ∈ name.toList ∧ ∃ s ∈ w.past, s.Deploys job name := by
    intro name
    rw [store, Store.purge_resource]
    split_ifs with colon
    · have empty : (World.start executor).Recalls job name := by
        simp [Recalls, World.start, Cluster.ofStore, Store.empty]
      rw [and_iff_right colon]
      exact empty.run (Orderly.start executor) valid colon turns
    · simp [colon]
  refine ⟨⟨record, graph, accumulators, free⟩, steps ▸ orderly.attended.mem_tasks_destroyed, rows, ?_⟩
  intro other others avoids fresh same
  have orderly_fresh := (Orderly.start other).run others
  have clear := (Clear.start other job).run (Orderly.start other) valid avoids
  have numbered_fresh := orderly_fresh.attended.tidy.numbered
  have rows_of_plain : (∀ s ∈ w.past, ∀ name, s.Deploys job name → ':' ∉ name.toList) →
      Store.SameRows job .empty d.store := by
    refine fun plain => ⟨record, graph, accumulators, fun name => ?_⟩
    refine Option.not_isSome_iff_eq_none.mp fun left => ?_
    obtain ⟨colon, s, member, deploys⟩ := (rows name).mp left
    exact plain s member name deploys colon
  constructor
  · intro alike
    have plain : ∀ s ∈ w.past, ∀ name, s.Deploys job name → ':' ∉ name.toList := by
      intro s member name deploys colon
      have left := (rows name).mpr ⟨colon, s, member, deploys⟩
      obtain ⟨errands, differ⟩ := Cluster.shows_ne_of_row valid missing clear.rows left
      exact differ (alike errands)
    refine ⟨plain, fun t member own => ?_⟩
    obtain ⟨errands, differ⟩ := Cluster.shows_ne_of_task valid attended (rows_of_plain plain) member own
      numbered_fresh clear.rows clear.tasks
    exact differ (alike errands)
  · rintro ⟨plain, unattended⟩ errands
    have alike := Cluster.Alike.of_rows numbered_fresh attended.tidy.numbered same.symm
      (clear.rows.symm.trans (rows_of_plain plain)) (clear.free orderly_fresh) free
    have none_left : ∀ {e : Cluster}, (∀ t ∈ e.tasks, t.job ≠ job) → e.tasksFor job = [] := fun gone => by
      simpa [Cluster.tasksFor, List.filter_eq_nil_iff] using gone
    refine alike.shows ?_ errands
    rw [none_left clear.tasks, none_left unattended]
    exact .nil

/-- A job that gets its first resource, in a world where it has no record. -/
lemma run_register_deploy {w : World} {job : String} (missing : w.cluster.Lacks job) (valid : Job.isName job = true)
    {config : JobConfig} (fits : config.Fits) (now : UInt64) {x : Resource}
    (free : w.cluster.store.getResource job x.name = .ok none) :
    ∃ s ∈ (w.run [.tick (.call ⟨job, .register config, now, fits⟩),
      .tick (.call ⟨job, .deploy [x], now, trivial⟩)]).past, s.Deploys job x.name := by
  have first : w.turn (.tick (.call ⟨job, .register config, now, fits⟩))
      = w.perform [.putJob (Record.new job config now.toNat)] := by
    rw [turn_call]
    exact congrArg (fun p => w.perform p.2)
      (Cluster.plan_register_of_lacks missing valid config now.toNat)
  generalize registered : w.perform [.putJob (Record.new job config now.toNat)] = v at first
  have found : v.cluster.findRecord job = .ok (Record.new job config now.toNat) := by
    rw [← registered]
    exact w.cluster.findRecord_after_register valid fits now
  have answer : v.cluster.deployAnswer job x = .ok .done := by
    have same : v.cluster.store.getResource job x.name = .ok none := by
      rw [← registered]
      exact free
    rw [Cluster.deployAnswer, same]
  have second : v.turn (.tick (.call ⟨job, .deploy [x], now, trivial⟩)) = v.perform
      [.putResources job [x], .putJob ((Record.new job config now.toNat).advance .deployed now.toNat)] := by
    have plan := Cluster.plan_deploy_of_registered found rfl x now.toNat
    rw [answer] at plan
    rw [turn_call]
    exact congrArg (fun p => v.perform p.2) plan
  rw [run_cons, run_cons, run_nil, first, second]
  exact ⟨⟨v.cluster, .putResources job [x]⟩, by simp [perform, Cluster.steps], [x], rfl, x, by simp⟩

/-- Calls leave the executor alone. -/
lemma turn_call_executor (w : World) (q : Request) :
    (w.turn (.tick (.call q))).cluster.executor = w.cluster.executor := by
  rw [turn_call]
  exact w.cluster.after_executor _

/-- A job that is registered, gets a resource with a colon in its name, and is destroyed, beside a
cluster that has never been used. -/
theorem destroy_leaves_a_colon :
    let x : Resource := ⟨"x:y", .data, .inline [0], "old"⟩
    let register : Turn := .tick (.call ⟨"a", .register ⟨4, 256, .empty⟩, 0, by decide, by decide⟩)
    let deploy : Turn := .tick (.call ⟨"a", .deploy [x], 0, trivial⟩)
    let w := (World.start acknowledge).run [register, deploy]
    let d := (w.cluster.issue (0 : UInt64).toNat "a" .destroy).2
    (w.cluster.issue (0 : UInt64).toNat "a" .destroy).1 = .answered (.ok .done) ∧
    (d.store.resources.find? (resourceKey "a" "x:y")).isSome = true ∧
    ∃ errands, d.shows "a" errands ≠ (World.start acknowledge).cluster.shows "a" errands := by
  intro x register deploy
  have valid : Job.isName "a" = true := by decide
  have stores : ∃ s ∈ ((World.start acknowledge).run [register, deploy]).past,
      s.Deploys "a" "x:y" :=
    run_register_deploy (w := World.start acknowledge) rfl valid _ 0 rfl
  have destroyed := (Cluster.issue_destroy_iff
    ((World.start acknowledge).run [register, deploy]).cluster (0 : UInt64).toNat).mpr valid
  have leaves := destroy_leaves_nothing_iff acknowledge [register, deploy] destroyed
  refine ⟨destroyed, (leaves.2.2.1 "x:y").mpr ⟨by decide, stores⟩, ?_⟩
  by_contra alike
  push Not at alike
  obtain ⟨s, member, deploys⟩ := stores
  have executor : (((World.start acknowledge).run [register, deploy]).cluster.issue
      (0 : UInt64).toNat "a" .destroy).2.executor = (World.start acknowledge).cluster.executor := by
    rw [Cluster.issue_eq, Cluster.after_executor, run_cons, run_cons, run_nil,
      turn_call_executor, turn_call_executor]
  exact ((leaves.2.2.2 acknowledge [] (by simp) executor.symm).mp alike).1 s member "x:y" deploys
    (by decide)

end World

end ControlPlane
