import Mathlib
import ControlPlane.Proofs.Cluster.Elsewhere
import ControlPlane.Proofs.Cluster.Race

/-!
# Jobs that do not meet

One cluster has many jobs.  Calls on them are under way at the same time, executions go on beside them, and
every now and then another cluster takes over.  Still all that can be seen of one job is what could be seen
if there were no other.

* `Office` — a cluster with all that is under way on it, and `Office.Event` — what may happen next.  A call
  takes its steps one by one, and anything may happen in between.
* `Office.exists_issue` — a call that is issued in one go is a call whose steps come one after the other.
* `Office.Orderly`, `Office.Alike` — what every event keeps, and two offices that are alike for a job.
* `Office.jobs_apart` — the statement about all runs.
-/

namespace ControlPlane

/-! ## Courses -/

/-- **What is under way for a job**: a call, or the publication of an outcome, which nobody waits for. -/
abbrev Course := Program (Option Issued)

namespace Course

def ofCall (call : Call) (job : String) (now : ℕ) : Course := do
  return some (← call.course job now)

def ofPublication (job : String) (result : Option WorkResult) (now : ℕ) : Course := do
  Operation.publish job result now
  return none

/-- What becomes of two courses that belong together. -/
def Ends (job : String) (same : ℕ → ℕ → Prop) : Option Issued → Option Issued → Prop :=
  Option.Rel (Issued.Alike job same)

/-- **Two courses that belong together.** -/
abbrev Alike (job : String) (same : ℕ → ℕ → Prop) : Course → Course → Prop :=
  Program.Alike job (Ends job) same

variable {job : String} {same later : ℕ → ℕ → Prop}

lemma Alike.mono {p q : Course} (h : Alike job same p q) (keeps : ∀ {e f}, same e f → later e f) :
    Alike job later p q := by
  refine Program.Alike.mono (fun keeps _ _ ended => ?_) h keeps
  cases ended with
  | none => exact .none
  | some issued => exact .some (issued.mono keeps)

lemma ofCall_alike {call : Call} (fits : call.Fits) (job : String) (now : UInt64) :
    Alike job same (ofCall call job now.toNat) (ofCall call job now.toNat) :=
  (Call.course_about fits job now same).bind fun _ _ _ ended => .done (.some ended)

lemma ofPublication_alike (job : String) (result : Option WorkResult) (now : UInt64) :
    Alike job same (ofPublication job result now.toNat) (ofPublication job result now.toNat) :=
  (Operation.publish_about job result now same).bind fun _ _ _ _ => .done .none

end Course

/-! ## Offices -/

/-- **A cluster with all that is under way on it.** -/
structure Office where
  cluster : Cluster
  /-- The executions of each job, in the order of their launches. -/
  executions : String → List ℕ
  /-- The calls on each job and the publications for it, in the order in which they have begun. -/
  desk : String → List Course

namespace Office

/-- **What is done about one job**, or happens to it. -/
inductive Step where
  /-- A call is made, which has not taken a step yet. -/
  | call (call : Call) (now : UInt64) (fits : call.Fits)
  /-- The course with number `n` takes its next step. -/
  | advance (n : ℕ)
  /-- Somebody looks for the answer to the call with number `n`. -/
  | look (n : ℕ)
  /-- The execution with number `n` goes on as far as it can. -/
  | work (n : ℕ)
  /-- The execution with number `n` begins to publish, if it has resolved. -/
  | publish (n : ℕ) (now : UInt64)
  /-- What the latest execution waits for has come. -/
  | openGate

/-- **What happens next.** -/
inductive Event where
  | about (job : String) (step : Step)
  /-- Another cluster takes over, at any time; what has been under way is gone. -/
  | restart
  /-- From now on the executor answers differently. -/
  | exchange (executor : Executor)

/-- All that happens happens to a job, but what is about others. -/
def Event.concerns (job : String) : Event → Bool
  | about key _ => key = job
  | restart | exchange _ => true

/-- An office over an empty store. -/
def new (executor : Executor) : Office := ⟨.ofStore .empty executor, fun _ => [], fun _ => []⟩

variable (x : Office) (job : String)

/-- A course begins. -/
def lay (p : Course) : Office := { x with desk := Function.update x.desk job (x.desk job ++ [p]) }

/-- A course takes its next step, if it has one. -/
def advance (n : ℕ) : Office :=
  match (x.desk job)[n]? with
  | some (.act a next) =>
    let (answer, c) := a.perform x.cluster
    ⟨c, Function.update x.executions job (x.executions job ++ x.cluster.launched c),
      Function.update x.desk job ((x.desk job).set n (next answer))⟩
  | _ => x

/-- An execution that has resolved is no task any more, and its publication is under way. -/
def publish (n now : ℕ) : Office :=
  match (x.executions job)[n]?.bind x.cluster.findTask with
  | some t =>
    match t.phase with
    | .resolved result =>
      { x with cluster := x.cluster.retire t.execution }.lay t.job (.ofPublication t.job result now)
    | .working _ => x
  | none => x

/-- **One step.** -/
def act : Step → Office
  | .call call now _ => x.lay job (.ofCall call job now.toNat)
  | .advance n => x.advance job n
  | .look _ => x
  | .work n =>
    match (x.executions job)[n]? with
    | some e => { x with cluster := x.cluster.resolved e }
    | none => x
  | .publish n now => x.publish job n now.toNat
  | .openGate => { x with cluster := (x.cluster.openGate job).2 }

/-- **One event.** -/
def attend : Event → Office
  | .about job step => x.act job step
  | .restart => ⟨x.cluster.restart, fun _ => [], fun _ => []⟩
  | .exchange executor => { x with cluster := { x.cluster with executor := executor } }

/-- **Events one after the other.** -/
def run (events : List Event) : Office := events.foldl attend x

/-- The answer to a call, if it has one by now. -/
def look (n : ℕ) : Option Answer :=
  match (x.desk job)[n]? with
  | some (.done (some issued)) => issued.poll x.cluster
  | _ => none

/-- What an event shows to those who look for answers to calls on a job. -/
def shown : Event → List (Option Answer)
  | .about key (.look n) => if key = job then [x.look job n] else []
  | _ => []

/-- **The answers** that are got to the calls on a job, and all that one does not get. -/
def sights (x : Office) (job : String) : List Event → List (Option Answer)
  | [] => []
  | e :: rest => x.shown job e ++ (x.attend e).sights job rest

variable {x job}

lemma advance_act {n : ℕ} {a : Action} {next : a.Answer → Course}
    (there : (x.desk job)[n]? = some (.act a next)) :
    x.advance job n = ⟨(a.perform x.cluster).2,
      Function.update x.executions job (x.executions job ++ x.cluster.launched (a.perform x.cluster).2),
      Function.update x.desk job ((x.desk job).set n (next (a.perform x.cluster).1))⟩ := by
  rw [advance, there]

lemma advance_done {n : ℕ} {issued : Option Issued} (there : (x.desk job)[n]? = some (.done issued)) :
    x.advance job n = x := by
  rw [advance, there]

/-! ### Calls in one go -/

/-- As many steps of a course as are left. -/
lemma exists_run {n : ℕ} {p : Course} (there : (x.desk job)[n]? = some p) :
    ∃ k, let y := x.run (.replicate k (.about job (.advance n)))
      y.cluster = (p.run x.cluster).2
        ∧ y.desk job = (x.desk job).set n (.done (p.run x.cluster).1) := by
  induction p generalizing x with
  | done issued =>
      obtain ⟨bound, same⟩ := List.getElem?_eq_some_iff.mp there
      refine ⟨0, rfl, ?_⟩
      show x.desk job = (x.desk job).set n (.done issued)
      rw [← same, List.set_getElem_self]
  | act a next ih =>
      have bound := (List.getElem?_eq_some_iff.mp there).1
      have advanced := advance_act there
      have next_there : ((x.advance job n).desk job)[n]? = some (next (a.perform x.cluster).1) := by
        simp [advanced, bound]
      obtain ⟨k, cluster, desk⟩ := ih _ next_there
      refine ⟨k + 1, cluster.trans (by rw [advanced]; rfl), desk.trans ?_⟩
      simp [advanced]

/-- **A call that is issued in one go** is a call that takes all its steps one after the other. -/
theorem exists_issue (x : Office) (job : String) {call : Call} (now : UInt64) (fits : call.Fits) :
    ∃ k, let n := (x.desk job).length
      let y := x.run (.about job (.call call now fits) :: .replicate k (.about job (.advance n)))
      y.cluster = (x.cluster.issue now.toNat job call).2
        ∧ y.desk job = x.desk job ++ [.done (some (x.cluster.issue now.toNat job call).1)] := by
  have there : ((x.lay job (.ofCall call job now.toNat)).desk job)[(x.desk job).length]?
      = some (.ofCall call job now.toNat) := by
    simp [lay]
  have run : (Course.ofCall call job now.toNat).run x.cluster
      = (some (x.cluster.issue now.toNat job call).1, (x.cluster.issue now.toNat job call).2) := by
    rw [← Call.course_run]
    exact Program.run_andThen x.cluster _ _
  obtain ⟨k, cluster, desk⟩ := exists_run there
  refine ⟨k, cluster.trans (congrArg Prod.snd run), desk.trans ?_⟩
  show _ = x.desk job ++ _
  rw [show (x.lay job (.ofCall call job now.toNat)).cluster = x.cluster from rfl, run]
  simp [lay]

/-! ## What every event keeps -/

/-- **An office in order**: every execution belongs to one job, and so does every course. -/
structure Orderly (x : Office) : Prop where
  tidy : x.cluster.Tidy
  belongs : x.cluster.Belongs x.executions
  courses : ∀ job, ∀ p ∈ x.desk job, Course.Alike job Eq p p

namespace Orderly

lemma new (executor : Executor) : (Office.new executor).Orderly where
  tidy := ⟨.restart (c := .ofStore .empty executor), fun {key r} stored => by
    simp [Cluster.Stores, Office.new, Cluster.ofStore, Store.getJob, Store.get, Store.empty] at stored⟩
  belongs := .restart (.ofStore .empty executor)
  courses := fun job p member => absurd member List.not_mem_nil

variable (h : x.Orderly)

include h

lemma lay (key : String) {p : Course} (alike : Course.Alike key Eq p p) : (x.lay key p).Orderly := by
  refine ⟨h.tidy, h.belongs, fun job q member => ?_⟩
  simp only [Office.lay, Function.update_apply] at member
  split_ifs at member with here
  · subst here
    rcases List.mem_append.mp member with before | new
    · exact h.courses job q before
    · obtain rfl := List.mem_singleton.mp new
      exact alike
  · exact h.courses job q member

lemma onCluster {c : Cluster} (tidy : c.Tidy) (belongs : c.Belongs x.executions) :
    Orderly { x with cluster := c } :=
  ⟨tidy, belongs, h.courses⟩

/-- **A step of a course** is a step about its job. -/
lemma advance (key : String) (n : ℕ) : (x.advance key n).Orderly := by
  rcases found : (x.desk key)[n]? with _ | (issued | ⟨a, next⟩)
  · rw [Office.advance, found]
    exact h
  · rw [advance_done found]
    exact h
  rw [advance_act found]
  cases h.courses key _ (List.mem_of_getElem? found) with
  | act own rest =>
      refine ⟨h.tidy.perform own.fits, h.belongs.perform own, fun job p member => ?_⟩
      simp only [Function.update_apply] at member
      split_ifs at member with here
      · subst here
        rcases List.mem_or_eq_of_mem_set member with before | rfl
        · exact h.courses job p before
        · exact rest id (own.honest h.tidy) (.refl ..)
      · exact h.courses job p member

lemma publish (key : String) (n : ℕ) (now : UInt64) : (x.publish key n now.toNat).Orderly := by
  unfold Office.publish
  cases (x.executions key)[n]?.bind x.cluster.findTask with
  | none => exact h
  | some t =>
      simp only
      cases t.phase with
      | working work => exact h
      | resolved result =>
          have retired := h.onCluster (h.tidy.of_store (h.tidy.numbered.retire t.execution)
            (Cluster.retire_store ..)) (h.belongs.retire t.execution)
          exact retired.lay t.job (Course.ofPublication_alike t.job result now)

lemma act (key : String) (step : Step) : (x.act key step).Orderly := by
  cases step with
  | call call now fits => exact h.lay key (Course.ofCall_alike fits key now)
  | advance n => exact h.advance key n
  | look n => exact h
  | work n =>
      simp only [Office.act]
      cases (x.executions key)[n]? with
      | none => exact h
      | some e =>
          exact h.onCluster (h.tidy.of_store (h.tidy.numbered.resolved e) (Cluster.resolved_store ..))
            (h.belongs.resolved e)
  | publish n now => exact h.publish key n now
  | openGate =>
      exact h.onCluster (h.tidy.of_store (h.tidy.numbered.openGate key) (Cluster.openGate_store ..))
        (h.belongs.openGate key)

/-- **Every event** leaves an office in order. -/
theorem attend (e : Event) : (x.attend e).Orderly := by
  cases e with
  | about key step => exact h.act key step
  | restart =>
      exact ⟨h.tidy.of_store .restart rfl, .restart _, fun job p member => absurd member List.not_mem_nil⟩
  | exchange executor =>
      refine h.onCluster (h.tidy.of_store ?_ rfl) ?_
      · exact ⟨h.tidy.numbered.tasks, h.tidy.numbered.slots, h.tidy.numbered.published⟩
      · exact ⟨h.belongs.given, h.belongs.apart, h.belongs.slots, h.belongs.tasks, h.belongs.latest⟩

lemma run (events : List Event) : (x.run events).Orderly := by
  induction events generalizing x with
  | nil => exact h
  | cons e rest ih => exact ih (h.attend e)

end Orderly

/-! ### What every event leaves alike -/

/-- The run slot of a job, in which an execution is told by its place among those of the job. -/
def slot? (x : Office) (job : String) : Option RunSlot :=
  (x.cluster.slots.find? job).map fun s => { s with execution := (x.executions job).idxOf s.execution }

end Office

/-- Two lists whose items belong together, with something else at one place of both. -/
lemma forall₂_set {α β : Type} {R : α → β → Prop} {l : List α} {l' : List β} {a : α} {b : β}
    (h : List.Forall₂ R l l') (n : ℕ) (pair : R a b) : List.Forall₂ R (l.set n a) (l'.set n b) := by
  induction h generalizing n with
  | nil => exact .nil
  | cons first rest ih =>
      cases n with
      | zero => exact .cons pair rest
      | succ n => exact .cons first (ih n)

/-- The place of a number, when numbers stand for each other. -/
lemma idxOf_of_forall₂ {same : ℕ → ℕ → Prop} {l l' : List ℕ} {e f : ℕ}
    (inj : ∀ {e f e' f'}, same e f → same e' f' → (e' = e ↔ f' = f)) (h : List.Forall₂ same l l')
    (pair : same e f) : l'.idxOf f = l.idxOf e := by
  induction h with
  | nil => rfl
  | @cons a b rest rest' first others ih =>
      have here := inj pair first
      rw [List.idxOf_cons, List.idxOf_cons, ih]
      by_cases found : a = e
      · rw [beq_iff_eq.mpr found, beq_iff_eq.mpr (here.mp found)]
      · rw [beq_false_of_ne found, beq_false_of_ne fun there => found (here.mpr there)]

namespace Office

/-- **Two offices that are alike for a job**, where `same e f` means that the numbers stand for the same
execution of the job.  The first may have other jobs beside it. -/
structure Alike (job : String) (same : ℕ → ℕ → Prop) (x y : Office) : Prop where
  cluster : Cluster.Alike job same x.cluster y.cluster
  pairs : ∀ {e f}, same e f → e ∈ x.executions job
  executions : List.Forall₂ same (x.executions job) (y.executions job)
  desk : List.Forall₂ (Course.Alike job same) (x.desk job) (y.desk job)

namespace Alike

variable {x y : Office} {job key : String} {same : ℕ → ℕ → Prop}

/-- Offices in which nothing is under way, over the same rows. -/
lemma of_rows {c d : Cluster} (executor : d.executor = c.executor)
    (store : Store.SameRows job c.store d.store) {x y : Office} (left : x = ⟨c.restart, fun _ => [], fun _ => []⟩)
    (right : y = ⟨d.restart, fun _ => [], fun _ => []⟩) : Alike job (fun _ _ => False) x y := by
  subst left right
  exact ⟨.of_rows .restart .restart executor store rfl rfl, False.elim, .nil, .nil⟩

/-! #### Events about other jobs -/

/-- The cluster has gone on without the job. -/
lemma untouched (h : Alike job same x y) {x' : Office} (numbered : x'.cluster.Numbered)
    (untouched : Cluster.Untouched job (x.executions job) x.cluster x'.cluster)
    (executions : x'.executions job = x.executions job) (desk : x'.desk job = x.desk job) :
    Alike job same x' y where
  cluster := h.cluster.untouched numbered untouched h.pairs
  pairs := by
    rw [executions]
    exact h.pairs
  executions := by
    rw [executions]
    exact h.executions
  desk := by
    rw [desk]
    exact h.desk

/-- **A step about another job.** -/
theorem elsewhere (h : Alike job same x y) (orderly : x.Orderly) (valid : Job.isName job = true)
    (other : key ≠ job) (step : Step) : Alike job same (x.act key step) y := by
  have numbered := (orderly.act key step).tidy.numbered
  cases step with
  | call call now fits =>
      refine h.untouched numbered (.refl ..) rfl ?_
      simp [Office.act, Office.lay, other.symm]
  | advance n =>
      rcases found : (x.desk key)[n]? with _ | (issued | ⟨a, next⟩)
      · simpa [Office.act, Office.advance, found] using h
      · simpa [Office.act, advance_done found] using h
      · cases orderly.courses key _ (List.mem_of_getElem? found) with
        | act own rest =>
            simp only [Office.act, advance_act found] at numbered ⊢
            refine h.untouched numbered (.perform orderly.belongs valid other own) ?_ ?_
            · simp [other.symm]
            · simp [other.symm]
  | look n => exact h
  | work n =>
      simp only [Office.act] at numbered ⊢
      cases found : (x.executions key)[n]? with
      | none => exact h
      | some e =>
          rw [found] at numbered
          exact h.untouched numbered (.resolved orderly.belongs other (List.mem_of_getElem? found)) rfl rfl
  | publish n now =>
      simp only [Office.act, Office.publish] at numbered ⊢
      cases found : (x.executions key)[n]? with
      | none => exact h
      | some e =>
          have theirs := List.mem_of_getElem? found
          simp only [found, Option.bind_some] at numbered ⊢
          cases task : x.cluster.findTask e with
          | none => exact h
          | some t =>
              obtain rfl := orderly.belongs.job_of_findTask theirs task
              obtain rfl := Cluster.findTask_execution task
              simp only [task] at numbered ⊢
              cases phase : t.phase with
              | working work => exact h
              | resolved result =>
                  simp only [phase] at numbered ⊢
                  refine h.untouched numbered (.retire orderly.belongs other theirs) rfl ?_
                  simp [Office.lay, other.symm]
  | openGate => exact h.untouched numbered (.openGate orderly.belongs other) rfl rfl

/-! #### Events about the job -/

/-- A course begins on both sides. -/
lemma lay (h : Alike job same x y) {p q : Course} (alike : Course.Alike job same p q) :
    Alike job same (x.lay job p) (y.lay job q) where
  cluster := h.cluster
  pairs := h.pairs
  executions := h.executions
  desk := by
    simp only [Office.lay, Function.update_self]
    exact List.rel_append h.desk (.cons alike .nil)

/-- The clusters go on without a new execution. -/
lemma onCluster (h : Alike job same x y) {c d : Cluster} (alike : Cluster.Alike job same c d) :
    Alike job same { x with cluster := c } { y with cluster := d } :=
  ⟨alike, h.pairs, h.executions, h.desk⟩

/-- **A step of a course on both sides**: if it launches an execution, the next numbers stand for it. -/
lemma perform (h : Alike job same x y) {a : Action} (own : a.Concerns job) :
    ∃ next, (∀ {e f}, same e f → next e f)
      ∧ Cluster.Alike job next (a.perform x.cluster).2 (a.perform y.cluster).2
      ∧ (∀ {e f}, next e f → e ∈ x.executions job ++ x.cluster.launched (a.perform x.cluster).2)
      ∧ List.Forall₂ next (x.executions job ++ x.cluster.launched (a.perform x.cluster).2)
          (y.executions job ++ y.cluster.launched (a.perform y.cluster).2) := by
  by_cases launches : ∃ context, a = .launch context
  · obtain ⟨context, rfl⟩ := launches
    have left := Cluster.launched_launch x.cluster context
    have right := Cluster.launched_launch y.cluster context
    refine ⟨Cluster.Alike.pairNext x.cluster y.cluster same, .inl, h.cluster.launch own, ?_, ?_⟩
    · rintro e f (pair | ⟨rfl, rfl⟩)
      · exact List.mem_append_left _ (h.pairs pair)
      · exact List.mem_append_right _ (left ▸ List.mem_cons_self)
    · refine List.rel_append (h.executions.imp fun _ _ => Or.inl) ?_
      simp only [Action.perform, left, right]
      exact .cons (.inr ⟨rfl, rfl⟩) .nil
  · have quiet : ∀ context, a ≠ .launch context := fun context same => launches ⟨context, same⟩
    have left := Cluster.launched_of_eq (Cluster.perform_next_old (c := x.cluster) quiet)
    have right := Cluster.launched_of_eq (Cluster.perform_next_old (c := y.cluster) quiet)
    refine ⟨same, id, h.cluster.perform_quiet own.staysWith quiet, ?_, ?_⟩
    · simp only [left, List.append_nil]
      exact h.pairs
    · simpa [left, right] using h.executions

/-- **A course takes its next step on both sides.** -/
theorem advance (h : Alike job same x y) (orderly : x.Orderly) (n : ℕ) :
    ∃ next, Alike job next (x.advance job n) (y.advance job n) := by
  rcases getElem?_of_forall₂ h.desk n with ⟨left, right⟩ | ⟨p, q, left, right, alike⟩
  · exact ⟨same, by rwa [Office.advance, left, Office.advance, right]⟩
  cases alike with
  | done ended =>
      refine ⟨same, ?_⟩
      rw [advance_done left, advance_done right]
      exact h
  | act own rest =>
      obtain ⟨next, keeps, cluster, pairs, executions⟩ := h.perform own
      have goes_on := rest id (own.honest orderly.tidy) (own.sameAnswer h.cluster)
      have others := h.desk.imp fun _ _ alike => Course.Alike.mono alike keeps
      refine ⟨next, ?_⟩
      rw [advance_act left, advance_act right]
      constructor
      case cluster => exact cluster
      all_goals simp only [Function.update_self]
      case pairs => exact pairs
      case executions => exact executions
      case desk => exact forall₂_set others n (Course.Alike.mono goes_on keeps)

/-- An execution begins to publish on both sides. -/
lemma publish (h : Alike job same x y) (n : ℕ) (now : UInt64) :
    Alike job same (x.publish job n now.toNat) (y.publish job n now.toNat) := by
  unfold Office.publish
  rcases getElem?_of_forall₂ h.executions n with ⟨left, right⟩ | ⟨e, f, left, right, pair⟩
  · simpa [left, right] using h
  simp only [left, right, Option.bind_some]
  rcases h.cluster.findTask pair with ⟨mine, other⟩ | ⟨t, rfl, rfl, mine, other⟩
  · simpa [mine, other] using h
  simp only [mine, other]
  cases t.phase with
  | working work => exact h
  | resolved result =>
      exact (h.onCluster (h.cluster.retire pair)).lay (Course.ofPublication_alike t.job result now)

/-- **A step about the job on both sides.** -/
theorem act (h : Alike job same x y) (orderly : x.Orderly) (step : Step) :
    ∃ next, Alike job next (x.act job step) (y.act job step) := by
  cases step with
  | call call now fits => exact ⟨same, h.lay (Course.ofCall_alike fits job now)⟩
  | advance n => exact h.advance orderly n
  | look n => exact ⟨same, h⟩
  | work n =>
      refine ⟨same, ?_⟩
      simp only [Office.act]
      rcases getElem?_of_forall₂ h.executions n with ⟨left, right⟩ | ⟨e, f, left, right, pair⟩
      · simpa [left, right] using h
      · simp only [left, right]
        exact h.onCluster (h.cluster.resolved pair)
  | publish n now => exact ⟨same, h.publish n now⟩
  | openGate => exact ⟨same, h.onCluster h.cluster.openGate⟩

/-! #### What is seen -/

/-- **The same answers**, and those that are not there yet. -/
lemma look (h : Alike job same x y) (n : ℕ) : y.look job n = x.look job n := by
  unfold Office.look
  rcases getElem?_of_forall₂ h.desk n with ⟨left, right⟩ | ⟨p, q, left, right, alike⟩
  · rw [left, right]
  rw [left, right]
  cases alike with
  | act own rest => rfl
  | done ended =>
      cases ended with
      | none => rfl
      | some issued => exact issued.poll_eq h.cluster

/-- **The same slot.** -/
lemma slot?_eq (h : Alike job same x y) : y.slot? job = x.slot? job := by
  unfold Office.slot?
  rcases h.cluster.slot_cases with ⟨left, right⟩ | ⟨s, f, pair, left, right⟩
  · rw [left, right]
    rfl
  · rw [left, right]
    simp only [Option.map_some, idxOf_of_forall₂ h.cluster.inj h.executions pair]

/-! #### Runs -/

/-- An event that is not about other jobs happens on both sides. -/
lemma attend (h : Alike job same x y) (orderly : x.Orderly) {e : Event} (concerns : e.concerns job = true) :
    (∃ next, Alike job next (x.attend e) (y.attend e)) ∧ y.shown job e = x.shown job e := by
  cases e with
  | about key step =>
      obtain rfl : key = job := by simpa [Event.concerns] using concerns
      refine ⟨h.act orderly step, ?_⟩
      cases step with
      | look n => simp [Office.shown, h.look n]
      | _ => rfl
  | restart => exact ⟨⟨_, .of_rows h.cluster.executor h.cluster.store rfl rfl⟩, rfl⟩
  | exchange executor =>
      refine ⟨⟨same, h.onCluster ?_⟩, rfl⟩
      have c := h.cluster
      exact ⟨⟨c.left.tasks, c.left.slots, c.left.published⟩, ⟨c.right.tasks, c.right.slots, c.right.published⟩,
        rfl, c.store, c.slot, c.old, c.inj, c.published, c.tasks, c.own, c.latest⟩

/-- An event about another job happens on one side only, and shows nothing of this one. -/
lemma aside (h : Alike job same x y) (orderly : x.Orderly) (valid : Job.isName job = true) {e : Event}
    (elsewhere : e.concerns job = false) : Alike job same (x.attend e) y ∧ x.shown job e = [] := by
  cases e with
  | about key step =>
      have other : key ≠ job := by simpa [Event.concerns] using elsewhere
      refine ⟨h.elsewhere orderly valid other step, ?_⟩
      cases step with
      | look n => exact if_neg other
      | _ => rfl
  | restart | exchange executor => simp [Event.concerns] at elsewhere

/-- **A run, and the same run without what is about other jobs.** -/
theorem run (h : Alike job same x y) (orderly : x.Orderly) (valid : Job.isName job = true)
    (events : List Event) :
    (∃ next, Alike job next (x.run events) (y.run (events.filter (Event.concerns job))))
      ∧ y.sights job (events.filter (Event.concerns job)) = x.sights job events := by
  induction events generalizing x y same with
  | nil => exact ⟨⟨same, h⟩, rfl⟩
  | cons e rest ih =>
      cases concerns : e.concerns job with
      | true =>
          obtain ⟨⟨next, alike⟩, shown⟩ := h.attend orderly concerns
          obtain ⟨later, sights⟩ := ih alike (orderly.attend e)
          rw [List.filter_cons_of_pos concerns]
          exact ⟨later, by rw [Office.sights, Office.sights, shown, sights]⟩
      | false =>
          obtain ⟨alike, shown⟩ := h.aside orderly valid concerns
          obtain ⟨later, sights⟩ := ih alike (orderly.attend e)
          rw [List.filter_cons_of_neg (by simp [concerns])]
          exact ⟨later, by rw [Office.sights, shown, List.nil_append, sights]⟩

end Alike

/-! ## Jobs that do not meet -/

/-- **Jobs do not interfere.**  Take away from a run all that is about other jobs.  Then the calls on a job
still get the same answers at the same time, and in the end its rows and its slot are the same.  And no
step about another job touches them. -/
theorem jobs_apart (executor : Executor) (events : List Event) {job : String}
    (valid : Job.isName job = true) :
    let own := events.filter (Event.concerns job)
    let all := (Office.new executor).run events
    let alone := (Office.new executor).run own
    (Office.new executor).sights job own = (Office.new executor).sights job events
      ∧ Store.SameRows job all.cluster.store alone.cluster.store
      ∧ alone.slot? job = all.slot? job
      ∧ ∀ key step, key ≠ job → Store.SameRows job all.cluster.store (all.act key step).cluster.store
        ∧ (all.act key step).slot? job = all.slot? job := by
  intro own all alone
  have orderly := Orderly.new executor
  have begins : Alike job (fun _ _ => False) (Office.new executor) (Office.new executor) :=
    .of_rows (c := .ofStore .empty executor) rfl (.refl ..) rfl rfl
  obtain ⟨⟨same, alike⟩, sights⟩ := begins.run orderly valid events
  refine ⟨sights, alike.cluster.store, alike.slot?_eq, fun key step other => ?_⟩
  have still := alike.elsewhere (orderly.run events) valid other step
  exact ⟨alike.cluster.store.trans still.cluster.store.symm, still.slot?_eq.symm.trans alike.slot?_eq⟩

/-- Beside the job a, its namesake a.b gets a resource with a colon in its name, and is destroyed between two
steps of a call on a. -/
theorem namesake_goes_unseen :
    let x : Resource := ⟨"x:a", .data, .inline [0], "old"⟩
    let step (job : String) (n : ℕ) : Event := .about job (.advance n)
    let register (job : String) : Event := .about job (.call (.register Cluster.plainConfig) 0 Cluster.plainConfig_fits)
    let deploy : Event := .about "a.b" (.call (.deploy [x]) 0 trivial)
    let destroy : Event := .about "a.b" (.call .destroy 0 trivial)
    let events : List Event := [register "a.b", step "a.b" 0, step "a.b" 0, deploy, register "a", step "a" 0,
      step "a.b" 1, step "a.b" 1, step "a.b" 1, step "a.b" 1, destroy, .about "a" (.look 0), step "a.b" 2,
      step "a.b" 2, step "a" 0, .about "a" (.look 0), .about "a.b" (.look 2)]
    let own : List Event := [register "a", step "a" 0, .about "a" (.look 0), step "a" 0, .about "a" (.look 0)]
    Job.isName "a" = true ∧ (Office.new acknowledge).sights "a" events = [none, some (.ok .done)]
      ∧ Store.SameRows "a" ((Office.new acknowledge).run events).cluster.store
          ((Office.new acknowledge).run own).cluster.store := by
  intro x step register deploy destroy events own
  have valid : Job.isName "a" = true := by decide
  have apart := jobs_apart acknowledge events valid
  have kept : events.filter (Event.concerns "a") = own := by
    simp [events, own, Event.concerns, step, register, deploy, destroy]
  rw [kept] at apart
  exact ⟨valid, apart.1.symm.trans rfl, apart.2.1⟩

end Office

end ControlPlane
