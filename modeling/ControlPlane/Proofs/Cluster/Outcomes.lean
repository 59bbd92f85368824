import Mathlib
import ControlPlane.Proofs.Cluster.Ledger
import ControlPlane.Proofs.Cluster.Stale

/-!
# One outcome for each execution

Those who wait for the outcome of an execution, at whatever time they begin and look, are told what
the ledger of executions tells.

* `World.Told.answer` — the outcome that a waiter is told is the one in the ledger.
* `World.Watches` — what holds for somebody who waits for an execution, until the next restart; from
  it follows what a waiter is told at any time (`World.Watches.answer`).
* `Round.Interrupts`, `World.interrupted_rounds` — the interrupts in the ledger are the acknowledged
  calls of the rounds.
* `World.observers_agree` — the statement about all rounds.
-/

namespace ControlPlane

/-! ## Those who wait -/

/-- A record only tells of an outcome that it shows. -/
lemma Operation.storedOutcome_ok {c : Cluster} {job : String} {outcome : Job.Outcome}
    (h : (plan c (storedOutcome job)).1 = .ok outcome) :
    ∃ r, c.Stores job r ∧ r.status.isFinished = true
      ∧ ∀ shown, r.Tells (some shown) → outcome = shown := by
  rw [plan_storedOutcome] at h
  rcases found : c.findRecord job with e | r
  · simp [found] at h
  · refine ⟨r, Cluster.stores_of_findRecord found, ?_⟩
    simp only [found] at h
    constructor
    · cases status : r.status <;> simp_all [JobStatus.isFinished]
    · rintro shown ⟨status, reason⟩
      rw [status] at h
      cases shown with
      | completed | interrupted => simpa [statusOf, eq_comm] using h
      | failed text => simpa [statusOf, reasonOf, reason, eq_comm] using h

namespace World

variable {w v : World}

/-- **Whoever gets an outcome, gets the one of the ledger.** -/
theorem Told.answer (h : w.Told) (h' : v.Told) (later : w.ledger.Extends v.ledger) {job : String}
    {outcome : Job.Outcome} (answer : (Waiter.start w.cluster job).poll v.cluster = some (.ok outcome)) :
    ∃ e x, w.ledger.current.find? job = some e ∧ v.ledger.executions[e]? = some x
      ∧ x.outcome = some outcome := by
  rw [Waiter.start_eq] at answer
  cases own : w.cluster.slots.find? job with
  | some slot =>
      simp only [own, Waiter.poll] at answer
      obtain ⟨current, -⟩ := Ledger.Agrees.slots h own
      cases known : v.cluster.published.lookup slot.execution with
      | some published =>
          obtain rfl : published = outcome := by simpa [known] using answer
          obtain ⟨x, found, same⟩ := Ledger.Agrees.published h' known
          exact ⟨slot.execution, x, current, found, same⟩
      | none =>
          simp only [known] at answer
          split_ifs at answer
          simp at answer
  | none =>
      simp only [own, Waiter.poll, Option.some.injEq] at answer
      obtain ⟨r, stored, finished, shows⟩ := Operation.storedOutcome_ok answer
      cases current : w.ledger.current.find? job with
      | none =>
          rw [Ledger.Agrees.others h current stored] at finished
          simp at finished
      | some e =>
          obtain ⟨x, s, found, -, stored', tells⟩ := Ledger.Agrees.records h current
          obtain rfl := stored.unique stored'
          cases known : x.outcome with
          | none =>
              rw [known] at tells
              simp [show r.status = .running from tells, JobStatus.isFinished] at finished
          | some shown =>
              rw [known] at tells
              obtain rfl := shows shown tells
              obtain ⟨y, found', same⟩ := later.outcome found known
              exact ⟨e, y, rfl, found', same⟩

/-- What holds for somebody who waits for an execution, until the next restart. -/
structure Watches (job : String) (e : ℕ) (w : World) : Prop where
  known : ∃ x, w.ledger.executions[e]? = some x ∧ w.cluster.published.lookup e = x.outcome
  kept : w.ledger.current.find? job = some e →
    ∃ slot, w.cluster.slots.find? job = some slot ∧ slot.execution = e

end World

/-- The process goes on after a round. -/
def Round.Stays : Round → Prop
  | .restart | .cut _ _ => False
  | _ => True

namespace World.Watches

variable {job : String} {e : ℕ} {w v : World}

/-- A waiter who finds a slot waits for the execution in it. -/
lemma start (h : w.Told) (waits : Waiter.start w.cluster job = .waiting job e) :
    w.Watches job e := by
  rw [Waiter.start_eq] at waits
  cases own : w.cluster.slots.find? job with
  | none => simp [own] at waits
  | some slot =>
      obtain rfl : slot.execution = e := by simpa [own] using waits
      obtain ⟨current, x, found, -, outcome⟩ := Ledger.Agrees.slots h own
      exact ⟨⟨x, found, (Ledger.Agrees.seen h own).trans outcome.symm⟩, fun _ => ⟨slot, own, rfl⟩⟩

/-- Nothing happens to the execution, and its slot stays as long as it is the current one. -/
lemma of_same (h : w.Watches job e)
    (executions : ∀ {x}, w.ledger.executions[e]? = some x →
      ∃ y, v.ledger.executions[e]? = some y ∧ y.outcome = x.outcome)
    (published : v.cluster.published.lookup e = w.cluster.published.lookup e)
    (kept : v.ledger.current.find? job = some e → w.ledger.current.find? job = some e
      ∧ ∀ slot, w.cluster.slots.find? job = some slot →
        ∃ later, v.cluster.slots.find? job = some later ∧ later.execution = slot.execution) :
    v.Watches job e where
  known := by
    obtain ⟨x, found, same⟩ := h.known
    obtain ⟨y, found', outcome⟩ := executions found
    exact ⟨y, found', by rw [published, same, outcome]⟩
  kept := by
    intro current
    obtain ⟨before, later⟩ := kept current
    obtain ⟨slot, own, rfl⟩ := h.kept before
    exact later slot own

/-- A call keeps a watch. -/
lemma effect (h : w.Watches job e) {key : String} {call : Call} {actions : List Action}
    (effect : w.cluster.Effect key call actions) : (w.perform actions).Watches job e := by
  have quiet : ∀ {actions : List Action}, (w.perform actions).ledger = w.ledger →
      (w.perform actions).cluster.published = w.cluster.published →
      (w.perform actions).cluster.slots = w.cluster.slots → (w.perform actions).Watches job e := by
    intro actions same published slots
    refine h.of_same (fun {x} found => ⟨x, by rw [same, found], rfl⟩) (by rw [published]) ?_
    rw [same, slots]
    exact fun current => ⟨current, fun slot own => ⟨slot, own, rfl⟩⟩
  cases effect with
  | nothing => exact quiet (ledger_perform _) rfl rfl
  | create | configure | deploy | submit => exact quiet (ledger_perform _) rfl rfl
  | @start r stored status fresh graph resources now =>
      obtain ⟨x, found, -⟩ := h.known
      have early := (List.getElem?_eq_some_iff.mp found).1
      refine h.of_same (fun {x} found => ⟨x, ?_, rfl⟩) rfl fun current => ?_
      · rw [ledger_perform]
        exact (List.getElem?_append_left early).trans found
      · rw [ledger_perform] at current
        have inserted : (w.ledger.current.insert key w.ledger.executions.length).find? job = some e :=
          current
        rw [Table.find?_insert] at inserted
        split_ifs at inserted with here
        · obtain rfl := Option.some.inj inserted
          exact absurd early (lt_irrefl _)
        · refine ⟨inserted, fun slot own => ⟨slot, ?_, rfl⟩⟩
          exact (Cluster.launch_find? ..).trans ((if_neg here).trans own)
  | @interrupt slot own unfinished =>
      refine h.of_same (fun {x} found => ?_) ?_ fun current => ⟨?_, fun slot own => ?_⟩
      · rw [ledger_perform]
        refine ⟨_, (Ledger.amend_get ..).trans (by rw [found, Option.map_some]), ?_⟩
        split_ifs <;> rfl
      · exact congrArg (List.lookup e) (Cluster.modifySlot_published ..)
      · rw [ledger_perform] at current
        exact (congrArg (fun t : Table ℕ => t.find? job) (Ledger.amend_current ..)).symm.trans current
      · have modified := Action.perform_find? w.cluster (.requestInterrupt key) job
        simp only [own, Option.map_some] at modified
        split_ifs at modified
        · exact ⟨_, modified, rfl⟩
        · exact ⟨_, modified, rfl⟩
  | destroy =>
      refine h.of_same (fun {x} found => ⟨x, by rw [ledger_perform]; exact found, rfl⟩) ?_
        fun current => ?_
      · exact congrArg (List.lookup e) (Cluster.removeSlot_published ..)
      · rw [ledger_perform] at current
        have erased : (w.ledger.current.erase key).find? job = some e := current
        rw [Table.find?_erase] at erased
        split_ifs at erased with here
        refine ⟨erased, fun slot own => ⟨slot, ?_, rfl⟩⟩
        exact (Cluster.removeSlot_find? ..).trans ((if_neg (Ne.symm here)).trans own)

/-- A poll keeps a watch; if it is the one that is waited for, it publishes for whoever waits. -/
lemma polls (h : w.Watches job e) (told : w.Told) {execution now : ℕ} {steps : List Action}
    {b : Cluster} (polls : w.cluster.Polls execution now steps v.cluster)
    (later : v.ledger = (b.steps steps).foldl Ledger.step w.ledger) : v.Watches job e := by
  generalize cluster : v.cluster = d at polls
  cases polls with
  | idle missing =>
      have same : v.ledger = w.ledger := later
      refine h.of_same (fun {x} found => ⟨x, by rw [same, found], rfl⟩) (by rw [cluster]) ?_
      rw [same, cluster]
      exact fun current => ⟨current, fun slot own => ⟨slot, own, rfl⟩⟩
  | @stands t work rest found phase ending a =>
      have same : v.ledger = w.ledger := later
      refine h.of_same (fun {x} found => ⟨x, by rw [same, found], rfl⟩) ?_ ?_
      · rw [cluster]
        exact congrArg (List.lookup e) (w.cluster.putCounters_published t a)
      · rw [same, cluster, Cluster.replaceTask_slots, Cluster.putCounters_eq_modifySlot,
          Cluster.modifySlot_find?]
        refine fun current => ⟨current, fun slot own => ?_⟩
        rw [own, Option.map_some]
        split_ifs
        · exact ⟨_, rfl, rfl⟩
        · exact ⟨_, rfl, rfl⟩
        · exact ⟨_, rfl, rfl⟩
  | @publishes t work slot r found phase own same unfinished stored running outcome eq a =>
      obtain rfl := Cluster.findTask_execution found
      obtain ⟨current, -⟩ := Ledger.Agrees.slots told own
      have amended : v.ledger = w.ledger.amend t.job fun x => { x with outcome := some outcome } :=
        later
      have published : v.cluster.published = (slot.execution, outcome) :: w.cluster.published := by
        rw [cluster]
        exact Cluster.publishedBy_published outcome a now r own same
      have slots : v.cluster.slots.find? job = if t.job = job then
          some { slot with accumulators := a, outcome := some outcome }
          else w.cluster.slots.find? job := by
        rw [cluster]
        exact Cluster.publishedBy_find? outcome a now r own same job
      constructor
      case known =>
        obtain ⟨x, known, seen⟩ := h.known
        rw [amended, Ledger.amend_get, known, Option.map_some, current, published, List.lookup_cons]
        refine ⟨_, rfl, ?_⟩
        by_cases here : e = slot.execution
        · simp [here]
        · rw [beq_false_of_ne here, if_neg (by simpa using Ne.symm here)]
          exact seen
      case kept =>
        intro here
        rw [amended, Ledger.amend_current] at here
        obtain ⟨mine, held, number⟩ := h.kept here
        rw [slots]
        split_ifs with key
        · subst key
          obtain rfl := Option.some.inj (own.symm.trans held)
          exact ⟨_, rfl, number⟩
        · exact ⟨mine, held, number⟩

/-- **A watch lasts until the next restart.** -/
lemma round (h : w.Watches job e) (told : w.Told) (calm : w.Calm) {r : Round} (stays : r.Stays) :
    (w.round r).Watches job e := by
  have quiet : ∀ {v : World}, v.past = w.past → v.cluster.published = w.cluster.published →
      (∀ slot, w.cluster.slots.find? job = some slot →
        ∃ later, v.cluster.slots.find? job = some later ∧ later.execution = slot.execution) →
      v.Watches job e := by
    intro v past published slots
    have same : v.ledger = w.ledger := by rw [World.ledger, past, World.ledger]
    refine h.of_same (fun {x} found => ⟨x, by rw [same, found], rfl⟩) (by rw [published]) fun current => ?_
    exact ⟨same ▸ current, slots⟩
  cases r with
  | call q =>
      rw [round_call]
      exact h.effect (q.effect w.cluster)
  | poll execution now =>
      rw [round_poll]
      exact h.polls told (calm.settled.polls execution now) (ledger_append ..)
  | write execution k =>
      refine quiet (List.append_nil _) rfl fun slot own => ?_
      have written := w.cluster.writeSink_find? execution k job
      rw [own, Option.map_some] at written
      refine ⟨_, written, ?_⟩
      split_ifs <;> rfl
  | openGate key =>
      refine quiet (List.append_nil _) (w.cluster.openGate_published key) fun slot own => ⟨slot, ?_, rfl⟩
      exact (congrArg (fun s : Table RunSlot => s.find? job) (w.cluster.openGate_slots key)).trans own
  | exchange executor => exact quiet (List.append_nil _) rfl fun slot own => ⟨slot, own, rfl⟩
  | restart | cut q n => exact stays.elim

lemma rounds (h : w.Watches job e) (told : w.Told) (calm : w.Calm) {rs : List Round}
    (stays : ∀ r ∈ rs, r.Stays) : (w.rounds rs).Watches job e := by
  induction rs generalizing w with
  | nil => exact h
  | cons r rs ih =>
      exact ih (h.round told calm (stays r List.mem_cons_self)) (told.round calm r).1 (calm.round r)
        fun s member => stays s (List.mem_cons_of_mem r member)

/-- **What a waiter is told**: the outcome as soon as it is published, nothing as long as the
execution is the current one of its job, and otherwise that there is no such job. -/
lemma answer (h : w.Watches job e) (told : w.Told) :
    ∃ x, w.ledger.executions[e]? = some x ∧ (Waiter.waiting job e).poll w.cluster =
      match x.outcome with
      | some outcome => some (.ok outcome)
      | none => if w.ledger.current.find? job = some e then none
        else some (.error (.jobNotFound job)) := by
  obtain ⟨x, found, seen⟩ := h.known
  refine ⟨x, found, ?_⟩
  rw [Waiter.poll, seen]
  cases x.outcome with
  | some outcome => rfl
  | none =>
      simp only
      by_cases current : w.ledger.current.find? job = some e
      · obtain ⟨slot, own, number⟩ := h.kept current
        rw [if_pos current, if_pos (by simp [Waiter.isKept, own, number])]
      · rw [if_neg current, if_neg]
        intro kept
        rw [Waiter.isKept] at kept
        cases own : w.cluster.slots.find? job with
        | none => simp [own] at kept
        | some slot =>
            obtain rfl : slot.execution = e := by simpa [own] using kept
            exact current (Ledger.Agrees.slots told own).1

end World.Watches

/-! ## Interrupts -/

/-- An interrupt is acknowledged exactly when its step is taken. -/
lemma Cluster.issue_interrupt (c : Cluster) (now : ℕ) (job : String) :
    (c.issue now job .interrupt).1 = .answered (.ok .done)
      ↔ Call.interrupt.actions c job now = [.requestInterrupt job] := by
  have plan := Operation.plan_interrupt c job
  have answer : (c.issue now job .interrupt).1
      = .answered ((Operation.plan c (Operation.interrupt job)).1.map fun _ => Reply.done) := by
    simp only [Cluster.issue, Program.run_eq_plan, Call.operation]
    exact congrArg (fun p : Except ClusterError Reply × List Action => Issued.answered p.1)
      (Operation.plan_map c (Operation.interrupt job) fun _ => Reply.done)
  rw [answer, Call.actions_eq, plan]
  cases c.slots.find? job with
  | none =>
      simp only
      cases c.findRecord job <;> simp [Except.map]
  | some slot =>
      simp only
      split_ifs <;> simp [Except.map]

/-- A request is an interrupt of an execution, and it is acknowledged. -/
def Request.Interrupts (q : Request) (w : World) (e : ℕ) : Prop :=
  q.call = .interrupt ∧ (w.cluster.issue q.now.toNat q.job q.call).1 = .answered (.ok .done)
    ∧ w.ledger.current.find? q.job = some e

/-- An interrupt of an execution is acknowledged, or the process ends just after it. -/
def Round.Interrupts (w : World) (e : ℕ) : Round → Prop
  | .call q => q.Interrupts w e
  | .cut q n => q.Interrupts w e ∧ 0 < n
  | _ => False

/-- Whether a step acknowledges an interrupt. -/
def Action.isInterrupt : Action → Bool
  | .requestInterrupt _ => true
  | _ => false

/-- Only a call that interrupts takes such a step. -/
lemma Cluster.Effect.not_interrupt {c : Cluster} {job : String} {call : Call} {actions : List Action}
    (effect : c.Effect job call actions) (other : call ≠ .interrupt) :
    ∀ a ∈ actions, a.isInterrupt = false := by
  cases effect with
  | interrupt found unfinished => exact absurd rfl other
  | nothing | create | configure | deploy | submit | start | destroy => simp [Action.isInterrupt]

lemma Cluster.Polls.not_interrupt {c d : Cluster} {execution now : ℕ} {actions : List Action}
    (polls : c.Polls execution now actions d) : ∀ a ∈ actions, a.isInterrupt = false := by
  cases polls <;> simp [Cluster.outcomeSteps, Action.isInterrupt]

namespace Ledger

/-- An execution is there and has been interrupted. -/
def Interrupted (l : Ledger) (e : ℕ) : Prop :=
  ∃ x, l.executions[e]? = some x ∧ x.interrupted = true

/-- No other step marks an execution as interrupted. -/
lemma interrupted_step (l : Ledger) {s : Step} (other : s.action.isInterrupt = false) (e : ℕ) :
    (l.step s).Interrupted e ↔ l.Interrupted e := by
  unfold Interrupted
  rcases s with ⟨before, action⟩
  cases action with
  | requestInterrupt job => simp [Action.isInterrupt] at other
  | launch context =>
      constructor
      · rintro ⟨x, found, interrupted⟩
        rcases lt_or_ge e l.executions.length with lt | ge
        · exact ⟨x, (List.getElem?_append_left lt).symm.trans found, interrupted⟩
        · have member := List.mem_of_getElem? ((List.getElem?_append_right ge).symm.trans found)
          rw [List.mem_singleton.mp member] at interrupted
          simp at interrupted
      · rintro ⟨x, found, interrupted⟩
        have lt := (List.getElem?_eq_some_iff.mp found).1
        exact ⟨x, (List.getElem?_append_left lt).trans found, interrupted⟩
  | setOutcome job outcome =>
      simp only [step, amend_get]
      constructor
      · rintro ⟨y, found, interrupted⟩
        obtain ⟨x, held, rfl⟩ := Option.map_eq_some_iff.mp found
        refine ⟨x, held, ?_⟩
        split_ifs at interrupted <;> exact interrupted
      · rintro ⟨x, found, interrupted⟩
        rw [found]
        refine ⟨_, rfl, ?_⟩
        split_ifs <;> exact interrupted
  | _ => exact Iff.rfl

lemma interrupted_foldl {c : Cluster} {actions : List Action}
    (others : ∀ a ∈ actions, a.isInterrupt = false) (l : Ledger) (e : ℕ) :
    ((c.steps actions).foldl Ledger.step l).Interrupted e ↔ l.Interrupted e := by
  induction actions generalizing c l with
  | nil => exact Iff.rfl
  | cons a rest ih =>
      have first := l.interrupted_step (s := ⟨c, a⟩) (others a List.mem_cons_self) e
      rw [Cluster.steps, List.foldl_cons, ← first]
      exact ih (fun b member => others b (List.mem_cons_of_mem a member)) _

/-- The execution of a job that is asked to stop, and no other, is marked. -/
lemma interrupted_amend (l : Ledger) {job : String} {current : ℕ}
    (here : l.current.find? job = some current) (there : current < l.executions.length) (e : ℕ) :
    (l.amend job fun x => { x with interrupted := true }).Interrupted e
      ↔ l.Interrupted e ∨ current = e := by
  unfold Interrupted
  simp only [amend_get, here, Option.some.injEq]
  by_cases same : current = e
  · subst same
    simp [List.getElem?_eq_getElem there]
  · simp [same]

end Ledger

namespace World

variable {w : World}

/-- The first steps of a call mark the execution that the call interrupts. -/
lemma Told.interrupted_take (h : w.Told) (q : Request) (n e : ℕ) :
    (w.perform ((q.actions w.cluster).take n)).ledger.Interrupted e
      ↔ w.ledger.Interrupted e ∨ q.Interrupts w e ∧ 0 < n := by
  rw [ledger_perform]
  have effect := q.effect w.cluster
  by_cases interrupts : q.call = .interrupt
  · have acknowledged := w.cluster.issue_interrupt q.now.toNat q.job
    rw [← interrupts] at acknowledged
    rw [Request.Interrupts, acknowledged]
    rw [show Call.actions w.cluster q.job q.now.toNat q.call = q.actions w.cluster from rfl]
    generalize q.actions w.cluster = actions at effect ⊢
    rw [interrupts] at effect ⊢
    cases effect with
    | nothing => simp [Cluster.steps]
    | @interrupt slot own unfinished =>
        obtain ⟨current, x, found, -⟩ := Ledger.Agrees.slots h own
        cases n with
        | zero => simp [Cluster.steps]
        | succ n =>
            have there := (List.getElem?_eq_some_iff.mp found).1
            have marked := w.ledger.interrupted_amend current there e
            simpa [Cluster.steps, Ledger.step, current] using marked
  · have others := effect.not_interrupt interrupts
    rw [Ledger.interrupted_foldl fun a member => others a (List.mem_of_mem_take member)]
    simp [Request.Interrupts, interrupts]

/-- **One round** marks an execution only by an interrupt that is acknowledged. -/
lemma Told.interrupted_round (h : w.Told) (calm : w.Calm) (r : Round) (e : ℕ) :
    (w.round r).ledger.Interrupted e ↔ w.ledger.Interrupted e ∨ r.Interrupts w e := by
  have quiet : ∀ {v : World}, v.past = w.past →
      (v.ledger.Interrupted e ↔ w.ledger.Interrupted e ∨ False) := by
    intro v past
    rw [World.ledger, past]
    exact (or_iff_left id).symm
  cases r with
  | call q =>
      have marked := h.interrupted_take q (q.actions w.cluster).length e
      rw [List.take_length] at marked
      rw [round_call, marked, Round.Interrupts]
      refine or_congr_right (and_iff_left_of_imp fun interrupts => ?_)
      have acknowledged := w.cluster.issue_interrupt q.now.toNat q.job
      rw [← interrupts.1] at acknowledged
      rw [show q.actions w.cluster = _ from acknowledged.mp interrupts.2.1]
      exact Nat.one_pos
  | cut q n => exact h.interrupted_take q n e
  | poll execution now =>
      have others := (calm.settled.polls execution now).not_interrupt
      rw [round_poll, World.ledger, ledger_append]
      exact (Ledger.interrupted_foldl others ..).trans (or_iff_left id).symm
  | write | openGate | restart | exchange => exact quiet (List.append_nil _)

/-- Where among the rounds an execution has been interrupted. -/
lemma interrupted_rounds (executor : Executor) (rs : List Round) (e : ℕ) :
    ((World.start executor).rounds rs).ledger.Interrupted e ↔ ∃ first r rest,
      rs = first ++ r :: rest ∧ r.Interrupts ((World.start executor).rounds first) e := by
  induction rs using List.reverseRecOn with
  | nil => simp [Ledger.Interrupted, World.ledger, ControlPlane.ledger, World.start]
  | append_singleton rs r ih =>
      have told := ((Told.start executor).rounds (.start executor) rs).1
      have calm := (Calm.start executor).rounds rs
      rw [rounds_append, rounds_cons, rounds_nil, told.interrupted_round calm, ih]
      constructor
      · rintro (⟨first, s, rest, rfl, interrupts⟩ | interrupts)
        · exact ⟨first, s, rest ++ [r], by simp, interrupts⟩
        · exact ⟨rs, r, [], rfl, interrupts⟩
      · rintro ⟨first, s, rest, eq, interrupts⟩
        rcases List.eq_nil_or_concat rest with rfl | ⟨rest, last, rfl⟩
        · obtain ⟨rfl, same⟩ := List.append_inj' eq rfl
          obtain rfl : r = s := by simpa using same
          exact .inr interrupts
        · have eq : rs ++ [r] = (first ++ s :: rest) ++ [last] := by simpa using eq
          obtain ⟨rfl, -⟩ := List.append_inj' eq rfl
          exact .inl ⟨first, s, rest, rfl, interrupts⟩

/-- An interrupt is only acknowledged before there is an outcome. -/
lemma Told.unfinished (h : w.Told) {r : Round} {e : ℕ} (interrupts : r.Interrupts w e) :
    ∃ x, w.ledger.executions[e]? = some x ∧ x.outcome = none := by
  have of_request : ∀ {q : Request}, q.Interrupts w e →
      ∃ x, w.ledger.executions[e]? = some x ∧ x.outcome = none := by
    rintro ⟨job, call, now, fits⟩ ⟨rfl, acknowledged, current⟩
    have effect := Request.effect ⟨job, .interrupt, now, fits⟩ w.cluster
    have steps := (w.cluster.issue_interrupt now.toNat job).mp acknowledged
    rw [show Request.actions ⟨job, .interrupt, now, fits⟩ w.cluster = _ from steps] at effect
    cases effect with
    | @interrupt slot own unfinished =>
        obtain ⟨current', x, found, -, outcome⟩ := Ledger.Agrees.slots h own
        obtain rfl := Option.some.inj (current'.symm.trans current)
        exact ⟨x, found, outcome.trans unfinished⟩
  cases r with
  | call q => exact of_request interrupts
  | cut q n => exact of_request interrupts.1
  | _ => exact interrupts.elim

/-- **What those who look at a job are told**, where `w` comes before `v` and `v` before `u`. -/
structure Observed (w v u : World) (job : String) : Prop where
  /-- Whoever begins to wait in `w` and knows an outcome in `v`, knows the outcome that the execution
  which was the current one in `w` still has in `u`. -/
  answers : ∀ {outcome}, (Waiter.start w.cluster job).poll v.cluster = some (.ok outcome) →
    ∃ e x, w.ledger.current.find? job = some e ∧ u.ledger.executions[e]? = some x
      ∧ x.outcome = some outcome
  /-- The record shows the outcome of the current execution, or that it goes on; and in `u` the
  execution still has that outcome. -/
  record : ∀ {e}, v.ledger.current.find? job = some e → ∃ x y r, v.ledger.executions[e]? = some x
    ∧ u.ledger.executions[e]? = some y ∧ (x.outcome = none ∨ y = x) ∧ v.cluster.Stores job r
    ∧ r.Tells x.outcome
  /-- Without an execution the record shows no outcome. -/
  noRecord : v.ledger.current.find? job = none → ∀ {r}, v.cluster.Stores job r →
    r.status.isFinished = false

/-- **All observers of an execution agree, and an acknowledged interrupt wins.**  Take rounds from an
empty store, and among them a moment to begin to wait, a later one to look, and the end.  All who look
are told the outcome that the ledger has in the end.  This outcome is `interrupted` exactly when an
interrupt of the execution has been acknowledged, at a time when it had no outcome yet, and otherwise it
is how the future of the executor has resolved.  As long as there is no restart, whoever waits for an
execution is told its outcome as soon as there is one, is told nothing before that, and is told that
there is no such job once it has been destroyed. -/
theorem observers_agree (executor : Executor) (before between after : List Round) (job : String) :
    let w := (World.start executor).rounds before
    let v := w.rounds between
    let u := v.rounds after
    w.Observed v u job ∧
    (∀ e x outcome, u.ledger.executions[e]? = some x → x.outcome = some outcome →
      (outcome = .interrupted ↔ ∃ first r rest y, before ++ between ++ after = first ++ r :: rest
        ∧ r.Interrupts ((World.start executor).rounds first) e
        ∧ ((World.start executor).rounds first).ledger.executions[e]? = some y ∧ y.outcome = none) ∧
      (outcome ≠ .interrupted → outcome = Operation.outcomeOf false (some x.ending))) ∧
    (∀ e, Waiter.start w.cluster job = .waiting job e → (∀ r ∈ between, r.Stays) →
      ∃ x, v.ledger.executions[e]? = some x ∧ (Waiter.start w.cluster job).poll v.cluster =
        match x.outcome with
        | some outcome => some (.ok outcome)
        | none => if v.ledger.current.find? job = some e then none
          else some (.error (.jobNotFound job))) := by
  intro w v u
  have calm : w.Calm := (Calm.start executor).rounds before
  have told : w.Told := ((Told.start executor).rounds (.start executor) before).1
  obtain ⟨told_v, later⟩ : v.Told ∧ w.ledger.Extends v.ledger := told.rounds calm between
  obtain ⟨told_u, later_u⟩ : u.Told ∧ v.ledger.Extends u.ledger :=
    told_v.rounds (calm.rounds between) after
  have rounds_eq : u = (World.start executor).rounds (before ++ between ++ after) := by
    rw [rounds_append, rounds_append]
  refine ⟨⟨?_, ?_, ?_⟩, ?_, ?_⟩
  · intro outcome answer
    obtain ⟨e, x, current, found, known⟩ := told.answer told_v later answer
    obtain ⟨y, found', known'⟩ := later_u.outcome found known
    exact ⟨e, y, current, found', known'⟩
  · intro e current
    obtain ⟨x, r, found, -, stored, tells⟩ := Ledger.Agrees.records told_v current
    obtain ⟨y, found', same⟩ := later_u.kept found
    exact ⟨x, y, r, found, found', same, stored, tells⟩
  · exact fun current r stored => Ledger.Agrees.others told_v current stored
  · intro e x outcome found known
    have right := Ledger.Agrees.outcomes told_u found known
    have marked := interrupted_rounds executor (before ++ between ++ after) e
    rw [← rounds_eq] at marked
    cases flag : x.interrupted with
    | true =>
        rw [flag] at right
        obtain ⟨first, r, rest, eq, interrupts⟩ := marked.mp ⟨x, found, flag⟩
        have told_first := ((Told.start executor).rounds (.start executor) first).1
        obtain ⟨y, held, unfinished⟩ := told_first.unfinished interrupts
        refine ⟨⟨fun _ => ⟨first, r, rest, y, eq, interrupts, held, unfinished⟩, fun _ => right⟩, ?_⟩
        exact fun other => absurd right other
    | false =>
        rw [flag] at right
        refine ⟨⟨fun interrupted => ?_, ?_⟩, fun _ => right⟩
        · rw [interrupted] at right
          rcases ending : x.ending with reason | _ <;> simp [Operation.outcomeOf, ending] at right
        · rintro ⟨first, r, rest, y, eq, interrupts, -⟩
          obtain ⟨z, held, interrupted⟩ := marked.mpr ⟨first, r, rest, eq, interrupts⟩
          obtain rfl := Option.some.inj (found.symm.trans held)
          rw [flag] at interrupted
          simp at interrupted
  · intro e waits stays
    rw [waits]
    exact ((Watches.start told waits).rounds told calm stays).answer told_v

end World

/-! ## An execution that is interrupted -/

namespace Cluster

variable {c : Cluster} {r : Record}

/-- After a restart the outcome is read back from the record. -/
lemma poll_restart {job : String} {outcome : Job.Outcome} (valid : Job.isName job = true)
    (stored : c.Stores job r) (tells : r.Tells (some outcome)) :
    (Waiter.start c.restart job).poll c.restart = some (.ok outcome) := by
  have found : c.restart.findRecord job = .ok r := findRecord_of_stores valid stored
  have read : (Operation.plan c.restart (Operation.storedOutcome job)).1 = .ok outcome := by
    rw [Operation.plan_storedOutcome, found]
    obtain ⟨status, reason⟩ := tells
    cases outcome <;> simp [status, reason, Operation.statusOf, Operation.reasonOf]
  rw [Waiter.start_eq, show c.restart.slots.find? job = none from rfl]
  exact congrArg some read

end Cluster

namespace World

/-- The opening of a job as rounds. -/
def openingRounds (job : String) (now : UInt64) : List Round := (Cluster.openingRequests job now).map .call

lemma rounds_opening {w : World} {job : String} (missing : w.cluster.Lacks job)
    (valid : Job.isName job = true) (none_yet : w.cluster.store.listResources job = .ok []) (now : UInt64) :
    (w.rounds (openingRounds job now)).cluster = w.cluster.opened job now.toNat := by
  rw [rounds_eq_run]
  exact run_openingTurns missing valid none_yet now

/-- What there is when an execution has been started that waits. -/
lemma rounds_opening_waiting :
    ∃ w, (World.start Cluster.waiting).rounds (openingRounds "a" 0) = w ∧ w.Calm ∧ w.Told
      ∧ w.cluster.findTask 0 = some ⟨0, "a", false, .working (.wait (.finish (.ok ())))⟩
      ∧ w.cluster.slots.find? "a" = some ⟨0, false, none, .empty⟩ ∧ w.cluster.published = []
      ∧ w.cluster.Stores "a" (Cluster.openRecord "a" (0 : UInt64).toNat) := by
  have opened := rounds_opening (w := World.start Cluster.waiting) rfl (by decide : Job.isName "a" = true) rfl 0
  have begun : (World.start Cluster.waiting).cluster = .ofStore .empty Cluster.waiting := rfl
  refine ⟨_, rfl, (Calm.start _).rounds _, ((Told.start _).rounds (.start _) _).1, ?_⟩
  rw [opened, begun]
  refine ⟨?_, ?_, Cluster.opened_published .., Cluster.opened_stores ..⟩
  · rw [Cluster.findTask, Cluster.opened_tasks]
    rfl
  · rw [Cluster.opened_find?, if_pos rfl]
    rfl

/-- Somebody waits for an execution; it is interrupted, publishes, and the cluster is started again.  Whoever has
begun to wait before, or begins after it has ended, or asks after the restart, is told the same. -/
theorem interrupted_execution_observed :
    let before := openingRounds "a" 0
    let interrupt : Request := ⟨"a", .interrupt, 1, trivial⟩
    let between : List Round := [.call interrupt, .poll 0 2]
    let w := (World.start Cluster.waiting).rounds before
    let v := w.rounds between
    let u := v.rounds [.restart]
    Waiter.start w.cluster "a" = .waiting "a" 0
      ∧ (Waiter.start w.cluster "a").poll w.cluster = none
      ∧ interrupt.Interrupts w 0
      ∧ (Waiter.start w.cluster "a").poll v.cluster = some (.ok .interrupted)
      ∧ (Waiter.start v.cluster "a").poll v.cluster = some (.ok .interrupted)
      ∧ (Waiter.start u.cluster "a").poll u.cluster = some (.ok .interrupted)
      ∧ w.Observed v u "a" := by
  have agree := observers_agree Cluster.waiting (openingRounds "a" 0)
    [.call ⟨"a", .interrupt, 1, trivial⟩, .poll 0 2] [.restart] "a"
  obtain ⟨w, reached, calm, told, task, own, untold, running⟩ := rounds_opening_waiting
  simp only [reached] at agree ⊢
  obtain ⟨observed, -, answers⟩ := agree
  have waits : Waiter.start w.cluster "a" = .waiting "a" 0 := by rw [Waiter.start_eq, own]
  have asks : Request.actions ⟨"a", .interrupt, 1, trivial⟩ w.cluster = [.requestInterrupt "a"] :=
    congrArg Prod.snd (Cluster.plan_interrupt_unfinished own rfl _)
  have cluster : (w.rounds [.call ⟨"a", .interrupt, 1, trivial⟩, .poll 0 2]).cluster
      = (w.cluster.requestInterrupt "a").play (Cluster.closingTicks 0 2) := by
    rw [rounds_cons, rounds_cons, rounds_nil, round_call, round_poll, asks, Cluster.settleTask_eq]
    rfl
  have told_v := (told.rounds calm [.call ⟨"a", .interrupt, 1, trivial⟩, .poll 0 2]).1
  obtain ⟨x, found, answer⟩ := answers 0 waits (by simp [Round.Stays])
  generalize w.rounds [.call ⟨"a", .interrupt, 1, trivial⟩, .poll 0 2] = v at *
  obtain ⟨ended, recorded, -⟩ :=
    Cluster.play_closing_interrupted task rfl own rfl running (Cluster.openRecord_sound "a" 0) (le_refl 3) 2
  rw [← cluster] at ended recorded
  -- The ledger tells what the slot tells.
  obtain ⟨-, y, found', -, outcome⟩ := Ledger.Agrees.slots told_v ended
  obtain rfl := Option.some.inj (found.symm.trans found')
  rw [outcome] at answer
  have late : Waiter.start v.cluster "a" = .waiting "a" 0 := by rw [Waiter.start_eq, ended]
  refine ⟨waits, ?_, ⟨rfl, ?_, ?_⟩, answer, ?_, ?_, observed⟩
  · rw [waits]
    exact Cluster.poll_untold own (by rw [untold]; rfl)
  · exact (w.cluster.issue_interrupt _ _).mpr asks
  · exact (Ledger.Agrees.slots told own).1
  · rw [late, ← waits]
    exact answer
  · exact Cluster.poll_restart (by decide) recorded ⟨rfl, rfl⟩

end World

end ControlPlane
