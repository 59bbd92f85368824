import Mathlib
import ControlPlane.Client.Control

/-!
# Check, call and transition are one action

Any number of operations on one handle run at once, beside the watchers of its executions.  An
operation takes one step at a time, and so does a watcher; in between all others may take theirs.  The
cluster answers every call as it likes, and the lock goes to whoever asks for it when it is free.

* `State.rank`, `Event.last` — how far a state is on its way, and how far an event can come.
* `Crowd`, `Move` — a handle with all that run on its pool, and their steps.
* `Crowd.Orderly` — the invariant: whoever has a call in flight has the lock, and its event stays
  legal; what has been acknowledged lies behind.
* `Crowd.Steps` — what a step does to an orderly crowd, `Crowd.Orderly.move` — that it stays orderly.
* `Crowd.calls_are_atomic` — the statement about runs.
-/

namespace ControlPlane

open Job (State Event)

/-! ## The way of a job -/

namespace Job

/-- How far a state is on the way of a job. -/
def State.rank : State → ℕ
  | .unstarted => 0
  | .initialized => 1
  | .deployed => 2
  | .submitted => 3
  | .running => 4
  | .completed | .failed | .interrupted => 5
  | .destroyed => 6

/-- How far on the way an event is still legal. -/
def Event.last : Event → ℕ
  | .init => 0
  | .deploy => 1
  | .submit => 2
  | .execute => 3
  | .complete | .fail | .interrupt => 4
  | .destroy => 5

/-- **Every event leads past the last state** in which it is legal. -/
lemma State.rank_next {s t : State} {e : Event} (h : s.next? e = some t) :
    s.rank ≤ e.last ∧ e.last < t.rank := by
  rw [next?_eq_some_iff] at h
  cases h with
  | destroy other => cases s <;> simp_all [State.rank, Event.last]
  | init | deploy | submit | execute | complete | fail | interrupt =>
      simp [State.rank, Event.last]

/-- What is destroyed stays so. -/
lemma State.ne_destroyed_of_next {s t : State} {e : Event} (h : s.next? e = some t) :
    s ≠ .destroyed := by
  rintro rfl
  simp [next?] at h

end Job

/-! ## Operations and watchers at once -/

/-- Whoever is found in a list after one more has come was there before, or is the new one. -/
lemma append_getElem? {α : Type} {l : List α} {n : ℕ} {u v : α} (found : (l ++ [v])[n]? = some u) :
    l[n]? = some u ∨ u = v := by
  rw [List.getElem?_append] at found
  split_ifs at found
  · exact .inl found
  · rw [List.getElem?_singleton] at found
    split_ifs at found
    exact .inr (Option.some.inj found).symm

/-- An operation of a handle, with how far it has come. -/
structure Undertaking where
  intent : Intent
  progress : Progress

/-- Who watches an execution. -/
inductive Watcher where
  /-- It waits for the cluster. -/
  | awaiting
  /-- It has the outcome, and waits for the lock. -/
  | arrived (outcome : Job.Outcome)
  | ended (result : Except JobError Job.Outcome)

/-- **A handle with all that run on its pool.** -/
structure Crowd where
  control : Control
  /-- The operations that have been called, in their order. -/
  tasks : List Undertaking
  watchers : List Watcher
  /-- The calls that the cluster has acknowledged, each with the number of its operation. -/
  acknowledged : List (ℕ × Intent)

/-- **What happens next**: one step of an operation or of a watcher. -/
inductive Move where
  /-- An operation is called, and takes its first step. -/
  | enter (i : Intent)
  /-- The operation with number `n` asks for the lock, and issues its call if it gets it. -/
  | acquire (n : ℕ)
  /-- The cluster answers the call of an operation. -/
  | answer (n : ℕ) (acknowledged : Except ClusterError Unit)
  /-- An operation that has started the execution puts a watcher on it. -/
  | watch (n : ℕ)
  /-- The cluster answers a watcher. -/
  | outcome (n : ℕ) (answer : Except ClusterError Job.Outcome)
  /-- A watcher asks for the lock, and delivers the outcome if it gets it. -/
  | deliver (n : ℕ)
  /-- The pool has been shut down, and takes an operation with it. -/
  | cancel (n : ℕ)
  /-- The pool has been shut down, and takes a watcher with it. -/
  | cancelWatcher (n : ℕ)

namespace Crowd

/-- A new handle. -/
def new (job : String) : Crowd := ⟨.new job, [], [], []⟩

/-- The crowd with an operation farther on its way. -/
def advance (s : Crowd) (n : ℕ) (i : Intent) (p : Progress) (c : Control) : Crowd :=
  { s with control := c, tasks := s.tasks.set n ⟨i, p⟩ }

/-- The result of an operation that went with its pool: what is destroyed has been destroyed. -/
def cancelled (c : Control) (i : Intent) : Except JobError State :=
  if c.isDone i then .ok .destroyed else .error (i.poolFailure c.job)

/-- **One step.**  A step that nobody can take changes nothing. -/
def move (s : Crowd) : Move → Crowd
  | .enter i => { s with tasks := s.tasks ++ [⟨i, s.control.enter i⟩] }
  | .acquire n =>
    match s.tasks[n]? with
    | some ⟨i, .queued⟩ => s.advance n i (s.control.acquire i).1 (s.control.acquire i).2
    | _ => s
  | .answer n a =>
    match s.tasks[n]? with
    | some ⟨i, .calling⟩ =>
      let t := s.advance n i (.finished (s.control.answer i a).1) (s.control.answer i a).2
      match a with
      | .ok () => { t with acknowledged := t.acknowledged ++ [(n, i)] }
      | .error _ => t
    | _ => s
  | .watch n =>
    match s.tasks[n]? with
    | some ⟨.execute, .finished (.ok _)⟩ => { s with watchers := s.watchers ++ [.awaiting] }
    | _ => s
  | .outcome n a =>
    match s.watchers[n]? with
    | some .awaiting =>
      match a with
      | .ok outcome => { s with watchers := s.watchers.set n (.arrived outcome) }
      | .error e =>
        let e := JobError.control s.control.job .awaitCompletion (.cluster e)
        { s with watchers := s.watchers.set n (.ended (.error e)) }
    | _ => s
  | .deliver n =>
    match s.watchers[n]? with
    | some (.arrived outcome) =>
      if s.control.locked then s
      else { s with
        control := s.control.deliver outcome
        watchers := s.watchers.set n (.ended (.ok outcome)) }
    | _ => s
  | .cancel n =>
    if s.control.poolUp then s
    else match s.tasks[n]? with
      | some ⟨i, .queued⟩ => s.advance n i (.finished (cancelled s.control i)) s.control
      | some ⟨i, .calling⟩ =>
        s.advance n i (.finished (cancelled s.control i)) { s.control with locked := false }
      | _ => s
  | .cancelWatcher n =>
    if s.control.poolUp then s
    else
      let e := JobError.control s.control.job .awaitCompletion (.text Intent.cancelled)
      match s.watchers[n]? with
      | some .awaiting | some (.arrived _) =>
        { s with watchers := s.watchers.set n (.ended (.error e)) }
      | _ => s

/-- **Steps one after the other**, in any order. -/
def run (s : Crowd) (moves : List Move) : Crowd := moves.foldl move s

/-- The call of an operation is in flight. -/
def Calls (s : Crowd) (n : ℕ) (i : Intent) : Prop := s.tasks[n]? = some ⟨i, .calling⟩

/-- **How the state comes to change** to `after` by a step: a call has been acknowledged, or an
outcome is delivered while nobody has the lock. -/
inductive Changes (s : Crowd) (after : State) : Move → Prop where
  | acknowledged {n : ℕ} {i : Intent} (calling : s.Calls n i)
      (legal : s.control.state.next? i.event = some after) : Changes s after (.answer n (.ok ()))
  | delivered {n : ℕ} {o : Job.Outcome} (arrived : s.watchers[n]? = some (.arrived o))
      (free : s.control.locked = false)
      (legal : s.control.state.next? (Control.eventOf o) = some after) :
      Changes s after (.deliver n)

/-! ## The invariant -/

/-- **What holds between two steps.** -/
structure Orderly (s : Crowd) : Prop where
  /-- Whoever has a call in flight has the lock. -/
  locked : ∀ {n i}, s.Calls n i → s.control.locked = true
  /-- Whoever has the lock has a call in flight. -/
  held : s.control.locked = true → ∃ n i, s.Calls n i
  alone : ∀ {n m i j}, s.Calls n i → s.Calls m j → n = m
  legal : ∀ {n i}, s.Calls n i → ∃ next, s.control.state.next? i.event = some next
  /-- The pool goes with the job. -/
  pool : s.control.poolUp = false → s.control.state = .destroyed
  /-- What has been acknowledged lies behind. -/
  behind : ∀ a ∈ s.acknowledged, a.2.event.last < s.control.state.rank
  once : (s.acknowledged.map fun a => a.2.call.kind).Nodup
  /-- Whoever has ended well has been acknowledged, or has found the job destroyed. -/
  ended : ∀ {n i t}, s.tasks[n]? = some ⟨i, .finished (.ok t)⟩ →
    (n, i) ∈ s.acknowledged ∨ i = .destroy ∧ s.control.state = .destroyed

variable {s : Crowd}

/-! ### Where an operation stands -/

lemma advance_tasks {n : ℕ} {u : Undertaking} (found : s.tasks[n]? = some u) (i : Intent)
    (p : Progress) (c : Control) (m : ℕ) :
    (s.advance n i p c).tasks[m]? = if n = m then some ⟨i, p⟩ else s.tasks[m]? := by
  have here : n < s.tasks.length := (List.getElem?_eq_some_iff.mp found).1
  simp [advance, List.getElem?_set, here]

/-- The calls in flight after a step of an operation. -/
lemma calls_advance {n m : ℕ} {u : Undertaking} (found : s.tasks[n]? = some u) {i j : Intent}
    {p : Progress} {c : Control} :
    (s.advance n i p c).Calls m j ↔ n = m ∧ i = j ∧ p = .calling ∨ n ≠ m ∧ s.Calls m j := by
  unfold Calls
  rw [advance_tasks found]
  by_cases same : n = m <;> simp [same]

end Crowd

/-! ## The steps of an operation -/

namespace Control

variable {c : Control} {i : Intent}

lemma isDone_iff : c.isDone i = true ↔ i = .destroy ∧ c.state = .destroyed := by
  cases i <;> simp [isDone]

/-- The first step issues no call. -/
lemma enter_ne_calling : c.enter i ≠ .calling := by
  unfold enter
  split
  · simp
  · split
    · simp
    · split <;> simp

/-- Whoever ends well at the first step finds the job destroyed. -/
lemma enter_ok {t : State} (h : c.enter i = .finished (.ok t)) :
    i = .destroy ∧ c.state = .destroyed := by
  unfold enter at h
  split at h
  next done => exact isDone_iff.mp done
  next =>
    split at h
    · simp at h
    · split at h <;> simp at h

/-- **The second step**: either nothing happens to the handle and no call is issued, or the lock was
free, the event is legal, and the call is issued. -/
lemma acquire_cases (c : Control) (i : Intent) :
    ((c.acquire i).2 = c ∧ (c.acquire i).1 ≠ .calling
      ∧ ∀ t, (c.acquire i).1 = .finished (.ok t) → i = .destroy ∧ c.state = .destroyed)
    ∨ c.locked = false ∧ (∃ next, c.state.next? i.event = some next)
      ∧ c.acquire i = (.calling, { c with locked := true }) := by
  unfold acquire
  split_ifs with locked done
  · simp
  · exact .inl ⟨rfl, by simp, fun _ _ => isDone_iff.mp done⟩
  · cases legal : c.state.next? i.event with
    | none => simp [check, legal]
    | some next => simp [check, legal, locked]

/-- **The third step**, when the cluster has acknowledged the call and the event is legal. -/
lemma answer_ok {next : State} (legal : c.state.next? i.event = some next) :
    c.answer i (.ok ())
      = (.ok next, ({ c with state := next, locked := false } : Control).wrapUp i) := by
  simp [answer, apply, check, legal]

@[simp] lemma wrapUp_state : (c.wrapUp i).state = c.state := by
  cases i <;> rfl

@[simp] lemma wrapUp_locked : (c.wrapUp i).locked = c.locked := by
  cases i <;> rfl

/-- The pool goes with the job, and with nothing else. -/
lemma wrapUp_poolUp (h : (c.wrapUp i).poolUp = false) : c.poolUp = false ∨ i = .destroy := by
  cases i <;> simp_all [wrapUp]

/-- An outcome is delivered by its event, if that is legal. -/
lemma deliver_cases (c : Control) (o : Job.Outcome) :
    c.deliver o = c ∨ ∃ next, c.state.next? (eventOf o) = some next
      ∧ c.deliver o = { c with state := next } := by
  unfold deliver
  cases legal : c.state.next? (eventOf o) with
  | none => exact .inl rfl
  | some next => exact .inr ⟨next, rfl, rfl⟩

end Control

namespace Crowd

variable {s : Crowd}

/-! ## What a step does -/

/-- **What a step does to a crowd**, as long as nothing is wrong with it. -/
inductive Steps (s : Crowd) : Move → Crowd → Prop where
  | idle {m : Move} : Steps s m s
  | entered (i : Intent) :
      Steps s (.enter i) { s with tasks := s.tasks ++ [⟨i, s.control.enter i⟩] }
  /-- An operation that has waited for the lock ends without a call, or goes on waiting. -/
  | aside {m : Move} {n : ℕ} {i : Intent} {p : Progress} (found : s.tasks[n]? = some ⟨i, .queued⟩)
      (silent : p ≠ .calling)
      (done : ∀ r, p = .finished (.ok r) → i = .destroy ∧ s.control.state = .destroyed) :
      Steps s m (s.advance n i p s.control)
  | issued {n : ℕ} {i : Intent} (found : s.tasks[n]? = some ⟨i, .queued⟩)
      (free : s.control.locked = false) (legal : ∃ next, s.control.state.next? i.event = some next) :
      Steps s (.acquire n) (s.advance n i .calling { s.control with locked := true })
  | refused {n : ℕ} {i : Intent} (calling : s.Calls n i) (e : ClusterError) :
      Steps s (.answer n (.error e)) (s.advance n i
        (.finished (.error (i.failure s.control.job (.cluster e)))) { s.control with locked := false })
  | acknowledged {n : ℕ} {i : Intent} {next : State} (calling : s.Calls n i)
      (legal : s.control.state.next? i.event = some next) :
      Steps s (.answer n (.ok ())) { s.advance n i (.finished (.ok next))
        (({ s.control with state := next, locked := false } : Control).wrapUp i) with
        acknowledged := s.acknowledged ++ [(n, i)] }
  | watched {m : Move} (watchers : List Watcher) : Steps s m { s with watchers := watchers }
  | delivered {n : ℕ} {o : Job.Outcome} {next : State} (arrived : s.watchers[n]? = some (.arrived o))
      (free : s.control.locked = false)
      (legal : s.control.state.next? (Control.eventOf o) = some next) (watchers : List Watcher) :
      Steps s (.deliver n) { s with
        control := { s.control with state := next }
        watchers := watchers }

/-- **Every step** is one of these: the event of a call in flight is legal, and the pool goes only when
nothing is. -/
theorem Orderly.steps (h : s.Orderly) (m : Move) : Steps s m (s.move m) := by
  cases m with
  | enter i => exact .entered i
  | acquire n =>
      simp only [move]
      split
      next i found =>
        rcases s.control.acquire_cases i with ⟨same, silent, done⟩ | ⟨free, legal, eq⟩
        · rw [same]
          exact .aside found silent done
        · rw [eq]
          exact .issued found free legal
      next => exact .idle
  | answer n a =>
      simp only [move]
      split
      next i found =>
        cases a with
        | error e => exact .refused found e
        | ok =>
            obtain ⟨next, legal⟩ := h.legal found
            simp only [Control.answer_ok legal]
            exact .acknowledged found legal
      next => exact .idle
  | watch n =>
      simp only [move]
      split
      · exact .watched _
      · exact .idle
  | outcome n a =>
      simp only [move]
      split
      · cases a <;> exact .watched _
      · exact .idle
  | deliver n =>
      simp only [move]
      split
      next o arrived =>
        split_ifs with locked
        · exact .idle
        · rcases s.control.deliver_cases o with same | ⟨next, legal, eq⟩
          · rw [same]
            exact .watched _
          · rw [eq]
            exact .delivered arrived (by simpa using locked) legal _
      next => exact .idle
  | cancel n =>
      simp only [move]
      split_ifs with up
      · exact .idle
      · have destroyed := h.pool (by simpa using up)
        split
        next i found =>
          refine .aside found (by simp) ?_
          intro r ended
          simp only [cancelled, Progress.finished.injEq] at ended
          split_ifs at ended with done
          exact Control.isDone_iff.mp done
        next i found =>
          obtain ⟨next, legal⟩ := h.legal found
          exact absurd destroyed (State.ne_destroyed_of_next legal)
        next => exact .idle
  | cancelWatcher n =>
      simp only [move]
      split_ifs
      · exact .idle
      · split
        · exact .watched _
        · exact .watched _
        · exact .idle

namespace Orderly

/-! ## One step -/

lemma new (job : String) : (Crowd.new job).Orderly where
  locked := by simp [Crowd.new, Calls]
  held := by simp [Crowd.new, Control.new]
  alone := by simp [Crowd.new, Calls]
  legal := by simp [Crowd.new, Calls]
  pool := by simp [Crowd.new, Control.new]
  behind := by simp [Crowd.new]
  once := by simp [Crowd.new]
  ended := by simp [Crowd.new]

/-- A step after which the same calls are in flight, and the same operations have ended well. -/
lemma of_same (h : s.Orderly) {t : Crowd} (control : t.control = s.control)
    (acknowledged : t.acknowledged = s.acknowledged)
    (calls : ∀ {n : ℕ} {i : Intent}, t.Calls n i ↔ s.Calls n i)
    (ended : ∀ {n : ℕ} {i : Intent} {r : State}, t.tasks[n]? = some ⟨i, .finished (.ok r)⟩ →
      s.tasks[n]? = some ⟨i, .finished (.ok r)⟩ ∨ i = .destroy ∧ s.control.state = .destroyed) :
    t.Orderly where
  locked := by
    intro n i calling
    rw [control]
    exact h.locked (calls.mp calling)
  held := by
    intro locked
    rw [control] at locked
    obtain ⟨n, i, calling⟩ := h.held locked
    exact ⟨n, i, calls.mpr calling⟩
  alone := by
    intro n m i j first second
    exact h.alone (calls.mp first) (calls.mp second)
  legal := by
    intro n i calling
    rw [control]
    exact h.legal (calls.mp calling)
  pool := by
    rw [control]
    exact h.pool
  behind := by
    rw [control, acknowledged]
    exact h.behind
  once := by
    rw [acknowledged]
    exact h.once
  ended := by
    intro n i r found
    rw [control, acknowledged]
    rcases ended found with before | destroyed
    · exact h.ended before
    · exact .inr destroyed

lemma entered (h : s.Orderly) (i : Intent) :
    ({ s with tasks := s.tasks ++ [⟨i, s.control.enter i⟩] } : Crowd).Orderly := by
  refine h.of_same rfl rfl ?_ ?_
  · intro n j
    constructor
    · intro calling
      rcases append_getElem? calling with before | new
      · exact before
      · exact absurd (congrArg Undertaking.progress new).symm Control.enter_ne_calling
    · intro calling
      have here := (List.getElem?_eq_some_iff.mp calling).1
      exact (List.getElem?_append_left here).trans calling
  · intro n j r found
    rcases append_getElem? found with before | new
    · exact .inl before
    · obtain ⟨rfl, ended⟩ : j = i ∧ .finished (.ok r) = s.control.enter i := by simpa using new
      exact .inr (Control.enter_ok ended.symm)

lemma aside (h : s.Orderly) {n : ℕ} {i : Intent} (found : s.tasks[n]? = some ⟨i, .queued⟩)
    {p : Progress} (silent : p ≠ .calling)
    (done : ∀ r, p = .finished (.ok r) → i = .destroy ∧ s.control.state = .destroyed) :
    (s.advance n i p s.control).Orderly := by
  refine h.of_same rfl rfl ?_ ?_
  · intro m j
    rw [calls_advance found]
    constructor
    · rintro (⟨-, -, calling⟩ | ⟨-, calling⟩)
      · exact absurd calling silent
      · exact calling
    · intro calling
      refine .inr ⟨?_, calling⟩
      rintro rfl
      simp [Calls, found] at calling
  · intro m j r ended
    rw [advance_tasks found] at ended
    split_ifs at ended
    · obtain ⟨rfl, finished⟩ : i = j ∧ p = .finished (.ok r) := by simpa using ended
      exact .inr (done r finished)
    · exact .inl ended

/-- As long as the lock is free, no call is in flight. -/
lemma nobody_of_free (h : s.Orderly) (free : s.control.locked = false) {n : ℕ} {i : Intent} :
    ¬s.Calls n i := by
  intro calling
  rw [h.locked calling] at free
  simp at free

/-- **A call is issued** when nobody else has one in flight. -/
lemma issued (h : s.Orderly) {n : ℕ} {i : Intent} (found : s.tasks[n]? = some ⟨i, .queued⟩)
    (free : s.control.locked = false) (legal : ∃ next, s.control.state.next? i.event = some next) :
    (s.advance n i .calling { s.control with locked := true }).Orderly := by
  have only : ∀ {m j}, (s.advance n i .calling { s.control with locked := true }).Calls m j →
      n = m ∧ i = j := by
    intro m j calling
    rcases (calls_advance found).mp calling with ⟨here, same, -⟩ | ⟨-, before⟩
    · exact ⟨here, same⟩
    · exact absurd before (h.nobody_of_free free)
  constructor
  case locked => simp [advance]
  case held => exact fun _ => ⟨n, i, (calls_advance found).mpr (.inl ⟨rfl, rfl, rfl⟩)⟩
  case alone => exact fun first second => (only first).1.symm.trans (only second).1
  case legal =>
    intro m j calling
    obtain ⟨rfl, rfl⟩ := only calling
    exact legal
  case pool => exact h.pool
  case behind => exact h.behind
  case once => exact h.once
  case ended =>
    intro m j r ended
    rw [advance_tasks found] at ended
    split_ifs at ended
    · simp at ended
    · exact h.ended ended

/-- When the only call has been answered, there is none in flight. -/
lemma nobody_of_answered (h : s.Orderly) {n m : ℕ} {i j : Intent} (calling : s.Calls n i)
    (r : Except JobError State) (c : Control) : ¬(s.advance n i (.finished r) c).Calls m j := by
  rw [calls_advance calling]
  rintro (⟨-, -, absurd⟩ | ⟨other, before⟩)
  · simp at absurd
  · exact other (h.alone calling before)

lemma refused (h : s.Orderly) {n : ℕ} {i : Intent} (calling : s.Calls n i) (e : JobError) :
    (s.advance n i (.finished (.error e)) { s.control with locked := false }).Orderly where
  locked := fun calls => absurd calls (h.nobody_of_answered calling _ _)
  held := by simp [advance]
  alone := fun calls => absurd calls (h.nobody_of_answered calling _ _)
  legal := fun calls => absurd calls (h.nobody_of_answered calling _ _)
  pool := h.pool
  behind := h.behind
  once := h.once
  ended := by
    intro m j r ended
    rw [advance_tasks calling] at ended
    split_ifs at ended
    · simp at ended
    · exact h.ended ended

/-- Calls of one kind announce one event. -/
lemma event_of_kind {i j : Intent} (h : i.call.kind = j.call.kind) : i.event = j.event := by
  cases i <;> cases j <;> simp_all [Intent.call, Call.kind, Intent.event]

/-- **A call is acknowledged**, and the state goes past all states in which it could be issued. -/
lemma acknowledged (h : s.Orderly) {n : ℕ} {i : Intent} {next : State} (calling : s.Calls n i)
    (legal : s.control.state.next? i.event = some next) :
    ({ s.advance n i (.finished (.ok next))
        (({ s.control with state := next, locked := false } : Control).wrapUp i) with
      acknowledged := s.acknowledged ++ [(n, i)] } : Crowd).Orderly := by
  have forward := State.rank_next legal
  have alive := State.ne_destroyed_of_next legal
  have nobody : ∀ {m : ℕ} {j : Intent},
      ¬(s.advance n i (.finished (.ok next)) s.control).Calls m j :=
    h.nobody_of_answered calling _ _
  constructor
  case locked => exact fun calls => absurd calls nobody
  case held => simp [advance]
  case alone => exact fun calls => absurd calls nobody
  case legal => exact fun calls => absurd calls nobody
  case pool =>
    intro down
    rcases Control.wrapUp_poolUp down with before | rfl
    · exact absurd (h.pool before) alive
    · cases state : s.control.state <;> simp_all [State.next?, Intent.event, advance]
  case behind =>
    intro b member
    simp only [advance, Control.wrapUp_state, List.mem_append, List.mem_singleton] at member ⊢
    rcases member with before | rfl
    · have := h.behind b before
      omega
    · exact forward.2
  case once =>
    simp only [List.map_append, List.map_cons, List.map_nil]
    refine List.nodup_append.mpr ⟨h.once, by simp, ?_⟩
    rintro k old k' new rfl
    obtain rfl := List.mem_singleton.mp new
    obtain ⟨b, before, kind⟩ := List.mem_map.mp old
    -- An older call of this kind would have led past the state in which this one was issued.
    have := h.behind b before
    rw [event_of_kind kind] at this
    omega
  case ended =>
    intro m j r ended
    have tasks := (advance_tasks calling i _ s.control m).symm.trans ended
    split_ifs at tasks with here
    · obtain ⟨rfl, -⟩ : i = j ∧ _ := by simpa using tasks
      subst here
      exact .inl (List.mem_append_right _ List.mem_cons_self)
    · rcases h.ended tasks with before | ⟨-, destroyed⟩
      · exact .inl (List.mem_append_left _ before)
      · exact absurd destroyed alive

/-- **An outcome is delivered** while nobody has a call in flight. -/
lemma delivered (h : s.Orderly) {next : State} {e : Event} (free : s.control.locked = false)
    (legal : s.control.state.next? e = some next) (watchers : List Watcher) :
    ({ s with control := { s.control with state := next }, watchers := watchers } : Crowd).Orderly := by
  have forward := State.rank_next legal
  have alive := State.ne_destroyed_of_next legal
  constructor
  case locked => exact h.locked
  case held => exact h.held
  case alone => exact h.alone
  case legal => exact fun calling => absurd calling (h.nobody_of_free free)
  case pool => exact fun down => absurd (h.pool down) alive
  case behind =>
    intro a member
    have := h.behind a member
    simp only
    omega
  case once => exact h.once
  case ended =>
    intro m j r ended
    rcases h.ended ended with before | ⟨-, destroyed⟩
    · exact .inl before
    · exact absurd destroyed alive

/-- **Every step** keeps the invariant. -/
theorem move (h : s.Orderly) (m : Move) : (s.move m).Orderly := by
  have steps := h.steps m
  generalize s.move m = t at steps
  cases steps with
  | idle => exact h
  | entered i => exact h.entered i
  | aside found silent done => exact h.aside found silent done
  | issued found free legal => exact h.issued found free legal
  | refused calling e => exact h.refused calling _
  | acknowledged calling legal => exact h.acknowledged calling legal
  | watched watchers => exact h.of_same rfl rfl Iff.rfl .inl
  | delivered arrived free legal watchers => exact h.delivered free legal watchers

theorem run (h : s.Orderly) (moves : List Move) : (s.run moves).Orderly := by
  induction moves generalizing s with
  | nil => exact h
  | cons m moves ih => exact ih (h.move m)

/-! ## What a step may do -/

/-- **A call is only issued** when its event is legal and no other call is in flight. -/
theorem issues (h : s.Orderly) {m : Move} {n : ℕ} {i : Intent} (after : (s.move m).Calls n i)
    (before : ¬s.Calls n i) :
    (∃ next, s.control.state.next? i.event = some next) ∧ ∀ k j, ¬s.Calls k j := by
  have steps := h.steps m
  generalize s.move m = t at after steps
  cases steps with
  | issued found free legal =>
      rcases (calls_advance found).mp after with ⟨-, rfl, -⟩ | ⟨-, old⟩
      · exact ⟨legal, fun k j => h.nobody_of_free free⟩
      · exact absurd old before
  | entered j =>
      rcases append_getElem? after with old | new
      · exact absurd old before
      · exact absurd (congrArg Undertaking.progress new).symm Control.enter_ne_calling
  | aside found silent done =>
      rcases (calls_advance found).mp after with ⟨-, -, calling⟩ | ⟨-, old⟩
      · exact absurd calling silent
      · exact absurd old before
  | refused calling e => exact absurd after (h.nobody_of_answered calling _ _)
  | acknowledged calling legal =>
      exact absurd after (h.nobody_of_answered calling (.ok _) s.control)
  | idle | watched watchers | delivered arrived free legal watchers => exact absurd after before

/-- **The state only changes** by an acknowledged call or by an outcome. -/
theorem changes (h : s.Orderly) (m : Move) :
    (s.move m).control.state = s.control.state ∨ s.Changes (s.move m).control.state m := by
  have steps := h.steps m
  generalize s.move m = t at steps ⊢
  cases steps with
  | acknowledged calling legal =>
      refine .inr (.acknowledged calling ?_)
      simpa [advance] using legal
  | delivered arrived free legal watchers => exact .inr (.delivered arrived free legal)
  | idle | entered i | aside found silent done | issued found free legal | refused calling e
    | watched watchers => exact .inl rfl

/-- A handle drives one job. -/
lemma job_move (h : s.Orderly) (m : Move) :
    (s.move m).control.job = s.control.job := by
  have steps := h.steps m
  generalize s.move m = t at steps ⊢
  cases steps with
  | @acknowledged n i next calling legal => cases i <;> rfl
  | idle | watched watchers | delivered arrived free legal watchers | entered i
  | aside found silent done | issued found free legal | refused calling e => rfl

/-- The state of a handle only goes forward. -/
lemma rank_mono (h : s.Orderly) (m : Move) :
    s.control.state.rank ≤ (s.move m).control.state.rank := by
  rcases h.changes m with same | changes
  · rw [same]
  · cases changes with
    | acknowledged calling legal =>
        have := State.rank_next legal
        omega
    | delivered arrived free legal =>
        have := State.rank_next legal
        omega

/-- **What an answer does** to the operation whose call is in flight. -/
theorem answers (h : s.Orderly) {n : ℕ} {i : Intent} (calling : s.Calls n i) :
    ∃ next, s.control.state.next? i.event = some next ∧
      ((s.move (.answer n (.ok ()))).tasks[n]? = some ⟨i, .finished (.ok next)⟩ ∧
        (s.move (.answer n (.ok ()))).control.state = next) ∧
      ∀ e, (s.move (.answer n (.error e))).tasks[n]?
          = some ⟨i, .finished (.error (i.failure s.control.job (.cluster e)))⟩ ∧
        (s.move (.answer n (.error e))).control.state = s.control.state := by
  obtain ⟨next, legal⟩ := h.legal calling
  have found : s.tasks[n]? = some ⟨i, .calling⟩ := calling
  refine ⟨next, legal, ?_, fun e => ?_⟩
  · simp only [Crowd.move, found, Control.answer_ok legal]
    refine ⟨(advance_tasks found i _ s.control n).trans (if_pos rfl), ?_⟩
    simp [advance]
  · simp only [Crowd.move, found]
    exact ⟨(advance_tasks found i _ s.control n).trans (if_pos rfl), rfl⟩

end Orderly

/-! ## Runs -/

/-- **Check, cluster call and transition are one action.**  Take any steps of any operations on a new
handle and of the watchers of its executions, in any order and with any answers of the cluster.

Whatever step comes next, it issues a call only if the event of the call is legal and no other call is
in flight.  At most one call is in flight.  As long as it is, its event stays legal; when it is
acknowledged the operation ends with the state to which the event leads, and when it is refused the
operation ends with that failure and the state stays.  The state changes by nothing but an
acknowledged call or a delivered outcome.  So no kind of call is acknowledged twice, and an operation
ends well only if its own call has been acknowledged, or if the job was to be destroyed and is. -/
theorem calls_are_atomic (job : String) (moves : List Move) :
    let s := (Crowd.new job).run moves
    (∀ m n i, (s.move m).Calls n i → ¬s.Calls n i →
      (∃ next, s.control.state.next? i.event = some next) ∧ ∀ k j, ¬s.Calls k j) ∧
    (∀ n m i j, s.Calls n i → s.Calls m j → n = m) ∧
    (∀ n i, s.Calls n i → ∃ next, s.control.state.next? i.event = some next ∧
      ((s.move (.answer n (.ok ()))).tasks[n]? = some ⟨i, .finished (.ok next)⟩ ∧
        (s.move (.answer n (.ok ()))).control.state = next) ∧
      ∀ e, (s.move (.answer n (.error e))).tasks[n]?
          = some ⟨i, .finished (.error (i.failure s.control.job (.cluster e)))⟩ ∧
        (s.move (.answer n (.error e))).control.state = s.control.state) ∧
    (∀ m, (s.move m).control.state = s.control.state ∨ s.Changes (s.move m).control.state m) ∧
    (s.acknowledged.map fun a => a.2.call.kind).Nodup ∧
    (∀ n i t, s.tasks[n]? = some ⟨i, .finished (.ok t)⟩ →
      (n, i) ∈ s.acknowledged ∨ i = .destroy ∧ s.control.state = .destroyed) := by
  intro s
  have orderly : s.Orderly := (Orderly.new job).run moves
  refine ⟨?_, ?_, ?_, orderly.changes, orderly.once, ?_⟩
  · exact fun m n i after before => orderly.issues after before
  · exact fun n m i j first second => orderly.alone first second
  · exact fun n i calling => orderly.answers calling
  · exact fun n i t ended => orderly.ended ended

end Crowd

end ControlPlane
