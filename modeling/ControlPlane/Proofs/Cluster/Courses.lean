import Mathlib
import ControlPlane.Proofs.Cluster.Errands
import ControlPlane.Proofs.Cluster.Standing

/-!
# Calls that are about one job

A call takes its steps one by one, and each of them is about the job that the call is for: it looks for the
rows or the slot of this job, or it writes them.  What it looks for decides how it goes on, but never by the
number of an execution.

* `Action.Concerns` — a step about a job.
* `Program.Alike` — two programs that are about the same job and go the same way, as long as they are
  answered alike.
* `Call.course` — a call with all its steps.  To carry it out in one go is to issue it (`course_run`).
* `Call.course_about`, `Operation.publish_about` — calls and publications are alike to themselves, whatever
  stands for whatever.
-/

namespace ControlPlane

open Cluster (SlotsAlike)

/-! ## Steps -/

namespace Action

/-- **A step about a job.**  What needs the name to be proper is said here as well: the keys of a name with a
colon might be those of others. -/
def Concerns (job : String) : Action → Prop
  | getJob key | getResource key _ | listResources key | getGraph key | putGraph key _
  | getAccumulators key | putAccumulators key _ | findSlot key | requestInterrupt key
  | removeSlot key | setOutcome key _ => key = job
  | putJob r => r.name = job ∧ r.Fits
  | putResources key _ | purge key => key = job ∧ Job.isName job = true
  | launch context => context.job = job
  | listJobs => False

/-- The answer that a step gets does not mislead: what is read as the record of a job is one. -/
def Honest (job : String) : (a : Action) → a.Answer → Prop
  | getJob _, answer => ∀ r, answer = .ok (some r) → r.name = job ∧ r.Fits
  | _, _ => True

/-- Two answers that are the same up to the numbers of executions. -/
def SameAnswer (same : ℕ → ℕ → Prop) : (a : Action) → a.Answer → a.Answer → Prop
  | findSlot _, x, y => Option.Rel (SlotsAlike same) x y
  | _, x, y => y = x

variable {a : Action} {job : String} {c d : Cluster} {same : ℕ → ℕ → Prop}

lemma Concerns.fits (h : a.Concerns job) : a.Fits := by
  cases a
  case putJob r => exact h.2
  all_goals trivial

lemma Concerns.staysWith (h : a.Concerns job) : Cluster.Alike.StaysWith job a := by
  cases a
  case launch | requestInterrupt | removeSlot | setOutcome => exact h
  all_goals trivial

lemma SameAnswer.refl (a : Action) (x : a.Answer) : a.SameAnswer Eq x x := by
  cases a
  case findSlot key =>
    rcases x with _ | s
    · exact .none
    · exact .some ⟨rfl, rfl⟩
  all_goals exact rfl

lemma SameAnswer.eq {x y : a.Answer} (h : a.SameAnswer same x y) (writes : a.isRead = false) :
    y = x := by
  cases a
  case findSlot => simp [isRead] at writes
  all_goals exact h

lemma Concerns.honest (h : a.Concerns job) (tidy : c.Tidy) : a.Honest job (a.perform c).1 := by
  cases a
  case getJob key =>
    obtain rfl : key = job := h
    intro r read
    exact tidy.labelled read
  all_goals trivial

/-- **Clusters that are alike for a job** give the same answers about it. -/
lemma Concerns.sameAnswer (h : a.Concerns job) (alike : Cluster.Alike job same c d) :
    a.SameAnswer same (a.perform c).1 (a.perform d).1 := by
  cases a
  case getJob key =>
    obtain rfl : key = job := h
    exact alike.store.getJob
  case getResource key name =>
    obtain rfl : key = job := h
    exact alike.store.getResource name
  case listResources key =>
    obtain rfl : key = job := h
    exact alike.store.listResources
  case getGraph key =>
    obtain rfl : key = job := h
    exact alike.store.getGraph
  case getAccumulators key =>
    obtain rfl : key = job := h
    exact alike.store.getAccumulators
  case findSlot key =>
    obtain rfl : key = job := h
    exact alike.slot
  case purge key =>
    obtain ⟨rfl, -⟩ : key = job ∧ _ := h
    show d.store.jobs.contains key = c.store.jobs.contains key
    rw [Table.contains, Table.contains, alike.store.record]
  case listJobs => exact h.elim
  all_goals rfl

end Action

/-! ## Programs -/

/-- **Two programs about the same job** that go the same way, as long as `same` tells which numbers stand for
each other, more of them may do so later, and the answers are honest and the same.  They end as `ends` says. -/
inductive Program.Alike {α : Type} (job : String) (ends : (ℕ → ℕ → Prop) → α → α → Prop) :
    (ℕ → ℕ → Prop) → Program α → Program α → Prop
  | done {same : ℕ → ℕ → Prop} {x y : α} (ended : ends same x y) :
      Alike job ends same (.done x) (.done y)
  | act {same : ℕ → ℕ → Prop} {a : Action} {p q : a.Answer → Program α} (own : a.Concerns job)
      (rest : ∀ {later : ℕ → ℕ → Prop}, (∀ {e f}, same e f → later e f) →
        ∀ {x y : a.Answer}, a.Honest job x → a.SameAnswer later x y → Alike job ends later (p x) (q y)) :
      Alike job ends same (.act a p) (.act a q)

namespace Program.Alike

variable {α β : Type} {job : String} {ends : (ℕ → ℕ → Prop) → α → α → Prop}
  {ends' : (ℕ → ℕ → Prop) → β → β → Prop} {same later : ℕ → ℕ → Prop} {p q : Program α}

lemma mono (monotone : ∀ {same later : ℕ → ℕ → Prop}, (∀ {e f}, same e f → later e f) →
      ∀ {x y}, ends same x y → ends later x y)
    (h : Alike job ends same p q) (keeps : ∀ {e f}, same e f → later e f) :
    Alike job ends later p q := by
  cases h with
  | done ended => exact .done (monotone keeps ended)
  | act own rest => exact .act own fun keeps' => rest fun pair => keeps' (keeps pair)

/-- **One program after another.** -/
theorem bind (h : Alike job ends same p q) {f g : α → Program β}
    (rest : ∀ {later : ℕ → ℕ → Prop}, (∀ {e f}, same e f → later e f) →
      ∀ {x y}, ends later x y → Alike job ends' later (f x) (g y)) :
    Alike job ends' same (p >>= f) (q >>= g) := by
  show Alike job ends' same (p.andThen f) (q.andThen g)
  induction h with
  | done ended => exact rest id ended
  | act own step ih =>
      refine .act own fun keeps _ _ honest answers => ih keeps honest answers ?_
      exact fun keeps' => rest fun pair => keeps' (keeps pair)

end Program.Alike

/-- Two results that are the same, of which something is known. -/
def Known {α : Type} (known : α → Prop) (_ : ℕ → ℕ → Prop) (x y : α) : Prop := y = x ∧ known x

/-- A program that is alike to itself, whatever stands for whatever. -/
def Program.About {α : Type} (job : String) (ends : (ℕ → ℕ → Prop) → α → α → Prop) (p : Program α) :
    Prop :=
  ∀ same, Program.Alike job ends same p p

/-! ## Operations -/

/-- The results of operations: the same failure, or successes that belong together. -/
inductive Except.Alike {ε α : Type} (ends : α → α → Prop) : Except ε α → Except ε α → Prop
  | ok {x y : α} (ended : ends x y) : Alike ends (.ok x) (.ok y)
  | error (e : ε) : Alike ends (.error e) (.error e)

namespace Operation

variable {α β : Type} {job : String} {ends : (ℕ → ℕ → Prop) → α → α → Prop}
  {ends' : (ℕ → ℕ → Prop) → β → β → Prop}

/-- **An operation about a job**, with what is known when it succeeds. -/
def About (job : String) (ends : (ℕ → ℕ → Prop) → α → α → Prop) (op : Operation α) : Prop :=
  Program.About job (fun same => Except.Alike (ends same)) op.run

/-- An operation that has nothing more to do with executions than to succeed. -/
abbrev Of (job : String) (known : α → Prop) (op : Operation α) : Prop := About job (Known known) op

namespace About

lemma pure {x : α} (ended : ∀ same, ends same x x) : About job ends (pure x : Operation α) :=
  fun same => .done (.ok (ended same))

lemma throw (e : ClusterError) : About job ends (throw e : Operation α) := fun _ => .done (.error e)

lemma bind {op : Operation α} {f : α → Operation β} (h : About job ends op)
    (rest : ∀ {same x y}, ends same x y →
      Program.Alike job (fun same => Except.Alike (ends' same)) same (f x).run (f y).run) :
    About job ends' (op >>= f) := by
  intro same
  refine (h same).bind (f := ExceptT.bindCont f) (g := ExceptT.bindCont f) fun keeps x y result => ?_
  cases result with
  | ok ended => exact rest ended
  | error e => exact .done (.error e)

/-- What comes after a result that is the same on both sides. -/
lemma bind_known {op : Operation α} {known : α → Prop} {f : α → Operation β} (h : Of job known op)
    (rest : ∀ x, known x → About job ends' (f x)) : About job ends' (op >>= f) :=
  h.bind fun {same x y} ended => by
    obtain ⟨rfl, fact⟩ := ended
    exact rest _ fact same

lemma ite {p : Prop} [Decidable p] {op op' : Operation α} (yes : p → About job ends op)
    (no : ¬p → About job ends op') : About job ends (if p then op else op') := by
  split_ifs with holds
  · exact yes holds
  · exact no holds

end About

/-! ### Steps and reads -/

/-- A step that writes. -/
lemma perform_of {a : Action} (own : a.Concerns job) (writes : a.isRead = false) :
    Of job (fun _ => True) (perform a) :=
  fun _ => .act own fun _ _ _ _ answers => .done (.ok ⟨answers.eq writes, trivial⟩)

lemma putJob_of {r : Record} (fits : r.Fits) (name : r.name = job) :
    Of job (fun _ => True) (perform (.putJob r)) :=
  perform_of (a := .putJob r) ⟨name, fits⟩ rfl

/-- An answer that comes from the store. -/
lemma ofStore_of {p : Program (Except StoreError α)} {known : α → Prop}
    (h : Program.About job (Known fun answer => ∀ x, answer = .ok x → known x) p) :
    Of job known (ofStore p) := by
  intro same
  let answered : Except StoreError α → Program (Except ClusterError α) := fun answer =>
    .done (answer.mapError ClusterError.state)
  refine (h same).bind (f := answered) (g := answered) fun _ x y result => ?_
  obtain ⟨rfl, fact⟩ := result
  cases y with
  | error e => exact .done (.error _)
  | ok v => exact .done (.ok ⟨rfl, fact v rfl⟩)

variable (job)

lemma getJob_of : Of job (fun found => ∀ r, found = some r → r.name = job ∧ r.Fits) (getJob job) := by
  refine ofStore_of fun same => .act (a := .getJob job) rfl fun keeps x y honest answers => .done ⟨answers, ?_⟩
  rintro found rfl r rfl
  exact honest r rfl

lemma getResource_of (name : String) : Of job (fun _ => True) (getResource job name) :=
  ofStore_of fun _ => .act (a := .getResource job name) rfl fun _ _ _ _ answers =>
    .done ⟨answers, fun _ _ => trivial⟩

lemma listResources_of : Of job (fun _ => True) (listResources job) :=
  ofStore_of fun _ => .act (a := .listResources job) rfl fun _ _ _ _ answers =>
    .done ⟨answers, fun _ _ => trivial⟩

lemma getGraph_of : Of job (fun _ => True) (getGraph job) :=
  ofStore_of fun _ => .act (a := .getGraph job) rfl fun _ _ _ _ answers =>
    .done ⟨answers, fun _ _ => trivial⟩

lemma getAccumulators_of : Of job (fun _ => True) (getAccumulators job) :=
  ofStore_of fun _ => .act (a := .getAccumulators job) rfl fun _ _ _ _ answers =>
    .done ⟨answers, fun _ _ => trivial⟩

/-! ### The way to an execution -/

lemma checkName_of : Of job (fun _ => Job.isName job = true) (checkName job) :=
  .ite (fun valid => .pure fun _ => ⟨rfl, valid⟩) fun _ => .throw _

lemma requireJob_of :
    Of job (fun r => Job.isName job = true ∧ r.name = job ∧ r.Fits) (requireJob job) := by
  refine (checkName_of job).bind_known fun _ valid => (getJob_of job).bind_known fun found known => ?_
  cases found with
  | none => exact .throw _
  | some r => exact .pure fun _ => ⟨rfl, valid, known r rfl⟩

lemma register_of {config : JobConfig} (fits : config.Fits) (now : UInt64) :
    Of job (fun _ => True) (register job config now.toNat) := by
  refine (checkName_of job).bind_known fun _ valid => (getJob_of job).bind_known fun found known => ?_
  cases found with
  | none => exact putJob_of (Record.Sound.ofNew fits now).fits rfl
  | some r =>
      obtain ⟨name, before⟩ := known r rfl
      refine .ite (fun _ => putJob_of ?_ name) fun _ => .throw _
      exact ⟨fits, before.createdAt, now.toNat_lt⟩

lemma checkResources_of (rs : List Resource) : Of job (fun _ => True) (checkResources job rs) := by
  induction rs with
  | nil => exact .pure fun _ => ⟨rfl, trivial⟩
  | cons r rest ih =>
      refine (getResource_of job r.name).bind_known fun existing _ => ?_
      cases existing with
      | none => exact ih
      | some existing => exact .ite (fun _ => ih) fun _ => .throw _

lemma deploy_of (rs : List Resource) (now : UInt64) :
    Of job (fun _ => True) (deploy job rs now.toNat) := by
  refine (requireJob_of job).bind_known fun r ⟨valid, name, fits⟩ => .ite (fun _ => ?_) fun _ => .throw _
  refine (checkResources_of job rs).bind_known fun _ _ => ?_
  refine (perform_of (a := .putResources job rs) ⟨rfl, valid⟩ rfl).bind_known fun _ _ => ?_
  exact putJob_of (fits.advance .deployed now) name

lemma submit_of (graph : Graph) (now : UInt64) :
    Of job (fun _ => True) (submit job graph now.toNat) := by
  refine (requireJob_of job).bind_known fun r ⟨valid, name, fits⟩ => .ite (fun _ => ?_) fun _ => .throw _
  refine (listResources_of job).bind_known fun rs _ => .ite (fun _ => ?_) fun _ => .throw _
  refine (perform_of (a := .putGraph job graph) rfl rfl).bind_known fun _ _ => ?_
  exact putJob_of (fits.advance .submitted now) name

lemma start_of (now : UInt64) : Of job (fun _ => True) (start job now.toNat) := by
  refine (requireJob_of job).bind_known fun r ⟨valid, name, fits⟩ => .ite (fun _ => .throw _) fun _ => ?_
  refine .ite (fun _ => (getGraph_of job).bind_known fun graph _ => ?_) fun _ => .throw _
  cases graph with
  | none => exact .throw _
  | some graph =>
      refine (listResources_of job).bind_known fun rs _ => ?_
      refine (putJob_of (fits.start.advance .running now) name).bind_known fun _ _ => ?_
      exact perform_of (a := .launch ⟨job, r.config, graph, rs⟩) rfl rfl

lemma destroy_of : Of job (fun _ => True) (destroy job) := by
  refine (checkName_of job).bind_known fun _ valid => ?_
  refine (perform_of (a := .removeSlot job) rfl rfl).bind_known fun _ _ => ?_
  refine (perform_of (a := .purge job) ⟨rfl, valid⟩ rfl).bind_known fun _ _ => ?_
  exact .pure fun _ => ⟨rfl, trivial⟩

/-! ### While it runs -/

lemma storedOutcome_of : Of job (fun _ => True) (storedOutcome job) := by
  refine (requireJob_of job).bind_known fun r _ => ?_
  cases r.status
  case completed | interrupted | failed => exact .pure fun _ => ⟨rfl, trivial⟩
  all_goals exact .throw _

variable {job}

/-- What comes after a look at the slot, which does not matter but for the number of the execution. -/
lemma findSlot_bind {f : Option RunSlot → Operation β} (free : About job ends' (f none))
    (taken : ∀ {same s n}, same s.execution n →
      Program.Alike job (fun same => Except.Alike (ends' same)) same (f (some s)).run
        (f (some { s with execution := n })).run) :
    About job ends' (perform (.findSlot job) >>= f) := by
  intro same
  refine .act rfl fun {later} _ x y _ answers => ?_
  rcases answers with ⟨pair, other⟩ | _
  · rw [other]
    exact taken pair
  · exact free later

variable (job)

lemma interrupt_of : Of job (fun _ => True) (interrupt job) := by
  refine findSlot_bind ?free fun {same s n} _ => ?taken
  case free => exact (requireJob_of job).bind_known fun _ _ => .throw _
  case taken =>
    have ends : Of job (fun _ => True) (if s.isFinished then throw (.notRunning job)
        else perform (.requestInterrupt job)) :=
      .ite (fun _ => .throw _) fun _ => perform_of rfl rfl
    exact ends same

lemma accumulators_of : Of job (fun _ => True) (accumulators job) := by
  refine findSlot_bind ?free fun {same s n} _ => .done (.ok ⟨rfl, trivial⟩)
  refine (getAccumulators_of job).bind_known fun found _ => ?_
  cases found with
  | some a => exact .pure fun _ => ⟨rfl, trivial⟩
  | none => exact (requireJob_of job).bind_known fun _ _ => .pure fun _ => ⟨rfl, trivial⟩

/-- The begin of a wait is the only answer with a number. -/
lemma beginAwait_about : About job (fun same => Sum.LiftRel same Eq) (beginAwait job) := by
  refine findSlot_bind ?_ fun pair => .done (.ok (.inl pair))
  exact (storedOutcome_of job).bind_known fun o _ => .pure fun _ => .inr rfl

/-! ### At the end of an execution -/

lemma persist_of (outcome : Job.Outcome) (a : Accumulators) (now : UInt64) :
    Of job (fun _ => True) (persist job outcome a now.toNat) := by
  have counters : Of job (fun _ => True) (perform (.putAccumulators job a)) := perform_of rfl rfl
  refine (getJob_of job).bind_known fun found known => ?_
  cases found with
  | none => exact counters
  | some r =>
      obtain ⟨name, fits⟩ := known r rfl
      have told := (fits.tell (reasonOf outcome)).advance (statusOf outcome) now
      exact (putJob_of told name).bind_known fun _ _ => counters

/-- **A publication** is about the job of the task. -/
theorem publish_about (result : Option WorkResult) (now : UInt64) :
    Program.About job (fun _ _ _ => True) (publish job result now.toNat) := by
  intro same
  refine .act (a := .findSlot job) rfl fun {later} _ x y _ answers => ?_
  rcases answers with ⟨pair, other⟩ | _
  · rw [other]
    refine (persist_of job _ _ now later).bind fun _ _ _ _ => ?_
    exact .act (a := .setOutcome job _) rfl fun _ _ _ _ _ => .done trivial
  · exact .done trivial

end Operation

/-! ## Calls -/

namespace Call

/-- **A call with all its steps**, as a program whose answer is what becomes of it. -/
def course (call : Call) (job : String) (now : ℕ) : Program Issued :=
  match call with
  | .await => do
    match ← (Operation.beginAwait job).run with
    | .ok (.inl execution) => return .waiting (.waiting job execution)
    | .ok (.inr outcome) => return .waiting (.answered (.ok outcome))
    | .error e => return .waiting (.answered (.error e))
  | call => do return .answered (← (call.operation job now).run)

/-- **A call is issued** by carrying out its course in one go. -/
theorem course_run (call : Call) (job : String) (now : ℕ) (c : Cluster) :
    (call.course job now).run c = c.issue now job call := by
  cases call
  case await =>
    have plan : Program.plan c (Operation.beginAwait job).run = _ := Operation.plan_beginAwait c job
    show (Program.andThen (Operation.beginAwait job).run _).run c
      = (Issued.waiting (Waiter.start c job), c)
    rw [Program.run_andThen, Waiter.start_eq, Program.run_eq_plan c (Operation.beginAwait job).run, plan]
    cases c.slots.find? job with
    | some slot => rfl
    | none =>
        simp only
        rcases (Operation.plan c (Operation.storedOutcome job)).1 with e | outcome <;> rfl
  all_goals exact Program.run_andThen c _ _

/-- The operation of a call that is not a wait. -/
lemma operation_of {call : Call} (fits : call.Fits) (job : String) (now : UInt64) :
    Operation.Of job (fun _ => True) (call.operation job now.toNat) := by
  have done {op : Operation Unit} (h : Operation.Of job (fun _ => True) op) :
      Operation.Of job (fun _ => True) (op >>= fun _ => pure Reply.done) :=
    h.bind_known fun _ _ => .pure fun _ => ⟨rfl, trivial⟩
  cases call with
  | register config => exact done (Operation.register_of job fits now)
  | deploy rs => exact done (Operation.deploy_of job rs now)
  | submit graph => exact done (Operation.submit_of job graph now)
  | start => exact done (Operation.start_of job now)
  | interrupt => exact done (Operation.interrupt_of job)
  | destroy => exact done (Operation.destroy_of job)
  | await =>
      exact (Operation.storedOutcome_of job).bind_known fun _ _ => .pure fun _ => ⟨rfl, trivial⟩
  | accumulators =>
      exact (Operation.accumulators_of job).bind_known fun _ _ => .pure fun _ => ⟨rfl, trivial⟩

/-- **A call** is about its job. -/
theorem course_about {call : Call} (fits : call.Fits) (job : String) (now : UInt64) :
    Program.About job (Issued.Alike job) (call.course job now.toNat) := by
  intro same
  have answers : Program.Alike job (Issued.Alike job) same
      (do return .answered (← (call.operation job now.toNat).run) : Program Issued)
      (do return .answered (← (call.operation job now.toNat).run) : Program Issued) := by
    refine (operation_of fits job now same).bind fun _ x y result => ?_
    rcases result with ⟨rfl, -⟩ | e
    · exact .done (.answered _)
    · exact .done (.answered _)
  cases call
  case await =>
    refine (Operation.beginAwait_about job same).bind fun _ x y result => ?_
    rcases result with (pair | rfl) | e
    · exact .done (.waits pair)
    · exact .done (.told _)
    · exact .done (.told _)
  all_goals exact answers

end Call

end ControlPlane
