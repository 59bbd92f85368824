import Mathlib
import ControlPlane.Cluster.Call

/-!
# What a call changes

An operation reads, decides, and then changes something or nothing.  Its plan is the answer together
with the steps that change something, so that whatever is proved of a call is proved of a list of steps.

* `Program.plan`, `Operation.plan` — the plan on a cluster.
* `Program.run_eq_plan` — a program answers what its plan says, and leaves the cluster after its steps.
* `Operation.plan_register`, … — the plan of every operation.
* `Cluster.issue_eq`, `Cluster.issue_answer` — calls, by their plans.
-/

namespace ControlPlane

/-! ## Steps -/

namespace Action

/-- The step only looks. -/
def isRead : Action → Bool
  | getJob _ | listJobs | getResource _ _ | listResources _ | getGraph _ | getAccumulators _
  | findSlot _ => true
  | _ => false

lemma perform_of_isRead {a : Action} (h : a.isRead = true) (c : Cluster) : (a.perform c).2 = c := by
  cases a <;> first | rfl | simp [isRead] at h

end Action

/-- The cluster after some steps. -/
def Cluster.after (c : Cluster) (steps : List Action) : Cluster :=
  steps.foldl (fun c a => (a.perform c).2) c

@[simp] lemma Cluster.after_nil (c : Cluster) : c.after [] = c := rfl

@[simp] lemma Cluster.after_cons (c : Cluster) (a : Action) (steps : List Action) :
    c.after (a :: steps) = ((a.perform c).2).after steps := rfl

@[simp] lemma Cluster.after_append (c : Cluster) (first second : List Action) :
    c.after (first ++ second) = (c.after first).after second :=
  List.foldl_append

/-- The record that an operation on a job asks for, or its failure. -/
def Cluster.findRecord (c : Cluster) (job : String) : Except ClusterError Record :=
  if Job.isName job then
    match c.store.getJob job with
    | .ok (some r) => .ok r
    | .ok none => .error (.jobNotFound job)
    | .error e => .error (.state e)
  else .error (.invalidJobName job)

/-! ## Plans -/

namespace Program

variable {α β : Type}

/-- **The plan of a program**: its answer, and its steps that change something. -/
def plan (c : Cluster) : Program α → α × List Action
  | done a => (a, [])
  | act action next =>
    let rest := (next (action.perform c).1).plan (action.perform c).2
    (rest.1, if action.isRead then rest.2 else action :: rest.2)

@[simp] lemma plan_done (c : Cluster) (a : α) : (done a).plan c = (a, []) := rfl

@[simp] lemma plan_pure (c : Cluster) (a : α) : (pure a : Program α).plan c = (a, []) := rfl

lemma run_eq_plan (c : Cluster) (p : Program α) : p.run c = ((p.plan c).1, c.after (p.plan c).2) := by
  induction p generalizing c with
  | done a => rfl
  | act action next ih =>
      rw [run_act, ih, plan]
      cases h : action.isRead with
      | true => simp [Action.perform_of_isRead h]
      | false => simp

lemma plan_bind (c : Cluster) (p : Program α) (f : α → Program β) :
    (p >>= f).plan c
      = (((f (p.plan c).1).plan (c.after (p.plan c).2)).1,
        (p.plan c).2 ++ ((f (p.plan c).1).plan (c.after (p.plan c).2)).2) := by
  show (p.andThen f).plan c = _
  induction p generalizing c with
  | done a => rfl
  | act action next ih =>
      simp only [andThen, plan, ih]
      cases h : action.isRead with
      | true => simp [Action.perform_of_isRead h]
      | false => simp

end Program

namespace Operation

variable {α β : Type}

/-- The plan of an operation, which can fail. -/
def plan (c : Cluster) (op : Operation α) : Except ClusterError α × List Action :=
  Program.plan c op.run

@[simp] lemma plan_pure (c : Cluster) (a : α) : plan c (pure a) = (.ok a, []) := rfl

@[simp] lemma plan_throw (c : Cluster) (e : ClusterError) :
    plan c (throw e : Operation α) = (.error e, []) := rfl

lemma plan_bind (c : Cluster) (op : Operation α) (f : α → Operation β) :
    plan c (op >>= f) = match plan c op with
      | (.ok a, steps) => ((plan (c.after steps) (f a)).1, steps ++ (plan (c.after steps) (f a)).2)
      | (.error e, steps) => (.error e, steps) := by
  show Program.plan c (op.run >>= ExceptT.bindCont f) = _
  rw [Program.plan_bind]
  unfold plan
  rcases Program.plan c op.run with ⟨a | e, steps⟩
  · simp [ExceptT.bindCont]
  · rfl

lemma plan_perform (c : Cluster) (a : Action) :
    plan c (perform a) = (.ok (a.perform c).1, if a.isRead then [] else [a]) := rfl

/-! ### The operations -/

lemma plan_getJob (c : Cluster) (job : String) :
    plan c (getJob job) = ((c.store.getJob job).mapError .state, []) := rfl

lemma plan_checkName (c : Cluster) (job : String) :
    plan c (checkName job) = (if Job.isName job then .ok () else .error (.invalidJobName job), []) := by
  unfold checkName
  split_ifs <;> rfl

lemma plan_requireJob (c : Cluster) (job : String) :
    plan c (requireJob job) = (c.findRecord job, []) := by
  unfold requireJob Cluster.findRecord
  rw [plan_bind, plan_checkName]
  split_ifs
  · simp only [plan_bind, plan_getJob, Cluster.after_nil]
    rcases c.store.getJob job with e | _ | r <;> rfl
  · rfl

lemma plan_register (c : Cluster) (job : String) (config : JobConfig) (now : ℕ) :
    plan c (register job config now) =
      if Job.isName job then
        match c.store.getJob job with
        | .ok (some r) =>
          if r.status = .registered then
            (.ok (), [.putJob { r with config := config, updatedAt := now }])
          else (.error (.jobAlreadyExists job), [])
        | .ok none => (.ok (), [.putJob (Record.new job config now)])
        | .error e => (.error (.state e), [])
      else (.error (.invalidJobName job), []) := by
  unfold register
  rw [plan_bind, plan_checkName]
  split_ifs
  · simp only [plan_bind, plan_getJob, Cluster.after_nil]
    rcases c.store.getJob job with e | _ | r
    · rfl
    · rfl
    · simp only [Except.mapError]
      split_ifs <;> rfl
  · rfl

lemma plan_getResource (c : Cluster) (job name : String) :
    plan c (getResource job name) = ((c.store.getResource job name).mapError .state, []) := rfl

lemma plan_listResources (c : Cluster) (job : String) :
    plan c (listResources job) = ((c.store.listResources job).mapError .state, []) := rfl

lemma plan_getGraph (c : Cluster) (job : String) :
    plan c (getGraph job) = ((c.store.getGraph job).mapError .state, []) := rfl

lemma plan_getAccumulators (c : Cluster) (job : String) :
    plan c (getAccumulators job) = ((c.store.getAccumulators job).mapError .state, []) := rfl

/-- To check resources is only to look. -/
lemma plan_checkResources (c : Cluster) (job : String) (rs : List Resource) :
    plan c (checkResources job rs) = ((plan c (checkResources job rs)).1, []) := by
  induction rs with
  | nil => rfl
  | cons r rest ih =>
      rw [checkResources, plan_bind, plan_getResource]
      rcases c.store.getResource job r.name with e | _ | existing
      · rfl
      · simp only [Except.mapError, Cluster.after_nil]
        rw [ih]
        rfl
      · simp only [Except.mapError, Cluster.after_nil]
        split_ifs
        · rw [ih]
          rfl
        · rfl

lemma plan_deploy (c : Cluster) (job : String) (rs : List Resource) (now : ℕ) :
    plan c (deploy job rs now) =
      match c.findRecord job with
      | .error e => (.error e, [])
      | .ok r =>
        if r.status = .registered ∨ r.status = .deployed then
          match (plan c (checkResources job rs)).1 with
          | .error e => (.error e, [])
          | .ok () => (.ok (), [.putResources job rs, .putJob (r.advance .deployed now)])
        else (.error (wrongStatus r "deploy" "registered or deployed"), []) := by
  unfold deploy
  rw [plan_bind, plan_requireJob]
  rcases c.findRecord job with e | r
  · rfl
  · simp only [Cluster.after_nil, Bool.or_eq_true, decide_eq_true_eq, List.nil_append]
    split_ifs
    · rw [plan_bind, plan_checkResources]
      rcases (plan c (checkResources job rs)).1 with e | _ <;> rfl
    · rfl

lemma plan_submit (c : Cluster) (job : String) (graph : Graph) (now : ℕ) :
    plan c (submit job graph now) =
      match c.findRecord job with
      | .error e => (.error e, [])
      | .ok r =>
        if r.status = .deployed then
          match c.store.listResources job with
          | .error e => (.error (.state e), [])
          | .ok resources =>
            if (missingReferences graph resources).isEmpty then
              (.ok (), [.putGraph job graph, .putJob (r.advance .submitted now)])
            else (.error (.graphRejected job (missingReferences graph resources)), [])
        else (.error (wrongStatus r "submit" "deployed"), []) := by
  unfold submit
  rw [plan_bind, plan_requireJob]
  rcases c.findRecord job with e | r
  · rfl
  · simp only [Cluster.after_nil, List.nil_append]
    split_ifs with status
    · rw [plan_bind, plan_listResources]
      rcases c.store.listResources job with e | resources
      · rfl
      · simp only [Except.mapError, Cluster.after_nil]
        split_ifs <;> rfl
    · rfl

lemma plan_start (c : Cluster) (job : String) (now : ℕ) :
    plan c (start job now) =
      match c.findRecord job with
      | .error e => (.error e, [])
      | .ok r =>
        if r.executionStarted then (.error (.executionAlreadyStarted job), [])
        else if r.status = .submitted then
          match c.store.getGraph job with
          | .error e => (.error (.state e), [])
          | .ok none => (.error (wrongStatus r "start" "a submitted graph"), [])
          | .ok (some graph) =>
            match c.store.listResources job with
            | .error e => (.error (.state e), [])
            | .ok resources =>
              (.ok (), [.putJob ({ r with executionStarted := true }.advance .running now),
                .launch ⟨job, r.config, graph, resources⟩])
        else (.error (wrongStatus r "start" "submitted"), []) := by
  unfold start
  rw [plan_bind, plan_requireJob]
  rcases c.findRecord job with e | r
  · rfl
  · by_cases started : r.executionStarted = true
    · simp only [started, if_true]
      rfl
    · by_cases status : r.status = .submitted
      · simp only [started, status, if_true, if_false, Cluster.after_nil, List.nil_append,
          plan_bind, plan_getGraph, Bool.false_eq_true]
        rcases c.store.getGraph job with e | _ | graph
        · rfl
        · rfl
        · simp only [Except.mapError, Cluster.after_nil, plan_bind, plan_listResources]
          rcases c.store.listResources job with e | resources <;> rfl
      · simp only [started, status, if_false, Bool.false_eq_true]
        rfl

lemma plan_storedOutcome (c : Cluster) (job : String) :
    plan c (storedOutcome job) =
      (match c.findRecord job with
      | .error e => .error e
      | .ok r => match r.status with
        | .completed => .ok .completed
        | .interrupted => .ok .interrupted
        | .failed => .ok (.failed (r.failure.getD ""))
        | _ => .error (.notRunning job), []) := by
  unfold storedOutcome
  rw [plan_bind, plan_requireJob]
  rcases c.findRecord job with e | r
  · rfl
  · simp only [Cluster.after_nil, List.nil_append]
    cases r.status <;> rfl

lemma plan_beginAwait (c : Cluster) (job : String) :
    plan c (beginAwait job) =
      (match c.slots.find? job with
      | some slot => .ok (.inl slot.execution)
      | none => (plan c (storedOutcome job)).1.map .inr, []) := by
  unfold beginAwait
  rw [plan_bind, plan_perform]
  simp only [Action.perform, Action.isRead, if_true, Cluster.after_nil, List.nil_append]
  rcases c.slots.find? job with _ | slot
  · rw [plan_bind, plan_storedOutcome]
    simp only
    generalize (match c.findRecord job with
      | .error e => .error e
      | .ok r => _ : Except ClusterError Job.Outcome) = found
    rcases found with e | o <;> rfl
  · rfl

lemma plan_interrupt (c : Cluster) (job : String) :
    plan c (interrupt job) =
      match c.slots.find? job with
      | none => (match c.findRecord job with
        | .error e => .error e
        | .ok _ => .error (.notRunning job), [])
      | some slot =>
        if slot.isFinished then (.error (.notRunning job), [])
        else (.ok (), [.requestInterrupt job]) := by
  unfold interrupt
  rw [plan_bind, plan_perform]
  simp only [Action.perform, Action.isRead, if_true, Cluster.after_nil, List.nil_append]
  rcases c.slots.find? job with _ | slot
  · rw [plan_bind, plan_requireJob]
    simp only
    rcases c.findRecord job with e | r <;> rfl
  · simp only
    split_ifs <;> rfl

lemma plan_destroy (c : Cluster) (job : String) :
    plan c (destroy job) =
      if Job.isName job then (.ok (), [.removeSlot job, .purge job])
      else (.error (.invalidJobName job), []) := by
  unfold destroy
  rw [plan_bind, plan_checkName]
  split_ifs <;> rfl

lemma plan_accumulators (c : Cluster) (job : String) :
    plan c (accumulators job) =
      (match c.slots.find? job with
      | some slot => .ok slot.accumulators
      | none => match c.store.getAccumulators job with
        | .error e => .error (.state e)
        | .ok (some a) => .ok a
        | .ok none => (c.findRecord job).map fun _ => .empty, []) := by
  unfold accumulators
  rw [plan_bind, plan_perform]
  simp only [Action.perform, Action.isRead, if_true, Cluster.after_nil, List.nil_append]
  rcases c.slots.find? job with _ | slot
  · simp only
    rw [plan_bind, plan_getAccumulators]
    rcases c.store.getAccumulators job with e | _ | a
    · rfl
    · simp only [Except.mapError, Cluster.after_nil]
      rw [plan_bind, plan_requireJob]
      rcases c.findRecord job with e | r <;> rfl
    · rfl
  · rfl

lemma plan_persist (c : Cluster) (job : String) (outcome : Job.Outcome) (a : Accumulators)
    (now : ℕ) :
    plan c (persist job outcome a now) =
      match c.store.getJob job with
      | .error e => (.error (.state e), [])
      | .ok none => (.ok (), [.putAccumulators job a])
      | .ok (some r) =>
        (.ok (), [.putJob ({ r with failure := reasonOf outcome }.advance (statusOf outcome) now),
          .putAccumulators job a]) := by
  unfold persist
  rw [plan_bind, plan_getJob]
  rcases c.store.getJob job with e | _ | r <;> rfl

lemma plan_publish (c : Cluster) (job : String) (result : Option WorkResult) (now : ℕ) :
    Program.plan c (publish job result now) =
      match c.slots.find? job with
      | none => ((), [])
      | some slot =>
        ((), (plan c (persist job (outcomeOf slot.interrupted result) slot.accumulators now)).2
          ++ [.setOutcome job (outcomeOf slot.interrupted result)]) := by
  unfold publish
  rw [Program.plan_bind]
  simp only [Program.ofAction, Program.plan, Action.perform, Action.isRead, if_true,
    Cluster.after_nil, List.nil_append]
  rcases c.slots.find? job with _ | slot
  · rfl
  · simp only [Program.plan_bind]
    rfl

lemma plan_map (c : Cluster) (op : Operation α) (f : α → β) :
    plan c (do let a ← op; return f a) = ((plan c op).1.map f, (plan c op).2) := by
  rw [plan_bind]
  rcases plan c op with ⟨e | a, steps⟩ <;> simp [Except.map]

end Operation

/-! ## Calls -/

/-- The steps of a call that change something. -/
def Call.actions (c : Cluster) (job : String) (now : ℕ) (call : Call) : List Action :=
  (Operation.plan c (call.operation job now)).2

open Operation in
lemma Call.actions_eq (c : Cluster) (job : String) (now : ℕ) (call : Call) :
    call.actions c job now = match call with
      | .register config => (plan c (Operation.register job config now)).2
      | .deploy resources => (plan c (Operation.deploy job resources now)).2
      | .submit graph => (plan c (Operation.submit job graph now)).2
      | .start => (plan c (Operation.start job now)).2
      | .interrupt => (plan c (Operation.interrupt job)).2
      | .destroy => (plan c (Operation.destroy job)).2
      | .await | .accumulators => [] := by
  cases call
  case await => simp only [Call.actions, Call.operation, plan_map, plan_storedOutcome]
  case accumulators => simp only [Call.actions, Call.operation, plan_map, plan_accumulators]
  all_goals simp only [Call.actions, Call.operation, plan_map]

/-- A job that is destroyed loses its slot, and then what is stored of it. -/
lemma Call.actions_destroy (c : Cluster) (now : ℕ) {job : String} (valid : Job.isName job = true) :
    Call.destroy.actions c job now = [.removeSlot job, .purge job] := by
  rw [Call.actions_eq]
  simp only [Operation.plan_destroy, if_pos valid]

lemma Cluster.issue_eq (c : Cluster) (now : ℕ) (job : String) (call : Call) :
    (c.issue now job call).2 = c.after (call.actions c job now) := by
  cases call
  case await =>
    rw [Call.actions_eq]
    rfl
  all_goals
    simp only [Cluster.issue, Program.run_eq_plan, Call.actions, Operation.plan]

/-- A call other than waiting is answered at once. -/
lemma Cluster.issue_answer (c : Cluster) (now : ℕ) (job : String) {call : Call}
    (atOnce : call ≠ .await) :
    (c.issue now job call).1 = .answered (Operation.plan c (call.operation job now)).1 := by
  cases call
  case await => simp at atOnce
  all_goals simp only [Cluster.issue, Program.run_eq_plan, Operation.plan]

/-- A waiter begins at the slot, or with what the record tells. -/
lemma Waiter.start_eq (c : Cluster) (job : String) :
    Waiter.start c job = match c.slots.find? job with
      | some slot => .waiting job slot.execution
      | none => .answered (Operation.plan c (Operation.storedOutcome job)).1 := by
  have plan : Program.plan c (Operation.beginAwait job).run = _ := Operation.plan_beginAwait c job
  rw [Waiter.start, Program.run_eq_plan, plan]
  cases c.slots.find? job with
  | some slot => rfl
  | none =>
      simp only
      rcases (Operation.plan c (Operation.storedOutcome job)).1 with e | outcome <;> rfl

end ControlPlane
