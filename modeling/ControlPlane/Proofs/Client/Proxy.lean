import Mathlib
import ControlPlane.Proofs.Client.Scene
import ControlPlane.Proofs.Cluster.Progress
import ControlPlane.Proofs.Cluster.Stale

/-!
# The state of a handle shows the record of its job

A handle and its cluster are two machines, and nothing but the answers to calls goes from one to the
other.  If the handle is the only one who drives its job, then its state says how the job stands in the
cluster, as soon as the lock is free.

* `Cluster.Reflects` — what a state says about record and slot.
* `Crowd.Agrees` — what the cluster holds while a call is in flight: the job stands where the handle has
  it, or where the handle will have it with the answer.
* `Scene.Faithful` — the invariant, with what watchers know about the outcome.
* `Faithful.move` — every beat keeps it.
* `Scene.handle_shows_record` — the statement about runs.
* `Scene.run_starting`, `run_interrupting`, `run_delivering` — an execution that is started, interrupted and
  waited for, from the side of its handle.
-/

namespace ControlPlane

open Job (State Event)

/-! ## States and what they say -/

/-- From the state of an outcome a job can only be destroyed. -/
lemma Control.next_stateOf {o : Job.Outcome} {e : Event} {t : State}
    (h : (stateOf o).next? e = some t) : t = .destroyed := by
  cases o <;> cases e <;> simp_all [stateOf, State.next?]

namespace Cluster

variable {c d : Cluster} {job : String} {state : State} {o : Job.Outcome}

/-- **What a state says** about the record of the job and about its slot. -/
def Reflects (c : Cluster) (job : String) : State → Prop
  | .unstarted | .destroyed => c.Lacks job ∧ c.slots.find? job = none
  | .initialized => ∃ r, c.Stores job r ∧ r.status = .registered
  | .deployed => ∃ r, c.Stores job r ∧ r.status = .deployed
  | .submitted => ∃ r, c.Stores job r ∧ r.status = .submitted
  | .running => ∃ r, c.Stores job r ∧ (r.status = .running ∨ r.status.isFinished = true)
  | .completed => ∃ r, c.Stores job r ∧ r.status = .completed
  | .failed => ∃ r, c.Stores job r ∧ r.status = .failed
  | .interrupted => ∃ r, c.Stores job r ∧ (r.status = .interrupted ∨ r.status = .running
      ∧ ∃ slot, c.slots.find? job = some slot ∧ slot.interrupted = true)

lemma Stands.reflects (h : c.Stands job state) : c.Reflects job state := by
  cases state with
  | unstarted => exact ⟨h.1, run?_eq_none.mp h.2.free⟩
  | initialized | deployed | submitted =>
      obtain ⟨r, stored, -, status, -⟩ := h
      exact ⟨r, stored, status⟩
  | running =>
      obtain ⟨s, holds⟩ := h
      obtain ⟨r, stored, -, tells⟩ := holds.recorded
      refine ⟨r, stored, ?_⟩
      cases ended : s.outcome with
      | none => exact .inl (by simpa [ended, Record.Tells] using tells)
      | some o =>
          rw [ended] at tells
          rw [show r.status = _ from tells.1]
          cases o <;> simp [Operation.statusOf, JobStatus.isFinished]
  | completed =>
      obtain ⟨s, holds, ended⟩ := h
      obtain ⟨r, stored, -, tells⟩ := holds.recorded
      rw [ended] at tells
      exact ⟨r, stored, tells.1⟩
  | failed =>
      obtain ⟨s, reason, holds, ended⟩ := h
      obtain ⟨r, stored, -, tells⟩ := holds.recorded
      rw [ended] at tells
      exact ⟨r, stored, tells.1⟩
  | interrupted =>
      obtain ⟨s, holds, ended | ⟨unfinished, flag⟩⟩ := h
      · obtain ⟨r, stored, -, tells⟩ := holds.recorded
        rw [ended] at tells
        exact ⟨r, stored, .inl tells.1⟩
      · obtain ⟨r, stored, -, tells⟩ := holds.recorded
        obtain ⟨slot, there, rfl⟩ := run?_eq_some.mp holds.found
        rw [unfinished] at tells
        exact ⟨r, stored, .inr ⟨tells, slot, there, flag⟩⟩
  | destroyed => exact ⟨h.1, run?_eq_none.mp h.2⟩

/-- The execution of a job has ended with an outcome, if there is an execution. -/
def Ends (c : Cluster) (job : String) (o : Job.Outcome) : Prop :=
  ∀ s, c.run? job = some s → s.outcome = some o

lemma Ends.follows (h : c.Ends job o) (follows : Follows job c d) : d.Ends job o := by
  intro s found
  obtain ⟨before, found', -, kept⟩ := follows s found
  exact kept o (h before found')

/-- **An outcome that is delivered** leads to its state, or finds a job that is there already or has been
destroyed. -/
lemma Stands.delivered (h : c.Stands job state) (ends : c.Ends job o) (late : 4 ≤ state.rank) :
    let after := (state.next? (Control.eventOf o)).getD state
    c.Stands job after ∧ (after = Control.stateOf o ∨ after = .destroyed) := by
  cases state with
  | unstarted | initialized | deployed | submitted => simp [State.rank] at late
  | running =>
      obtain ⟨s, holds⟩ := h
      have ended := ends s holds.found
      cases o with
      | completed => exact ⟨⟨s, holds, ended⟩, .inl rfl⟩
      | failed reason => exact ⟨⟨s, reason, holds, ended⟩, .inl rfl⟩
      | interrupted => exact ⟨⟨s, holds, .inl ended⟩, .inl rfl⟩
  | completed =>
      obtain ⟨s, holds, ended⟩ := h
      obtain rfl : Job.Outcome.completed = o := by simpa [ended] using ends s holds.found
      exact ⟨⟨s, holds, ended⟩, .inl rfl⟩
  | failed =>
      obtain ⟨s, reason, holds, ended⟩ := h
      obtain rfl : Job.Outcome.failed reason = o := by simpa [ended] using ends s holds.found
      exact ⟨⟨s, reason, holds, ended⟩, .inl rfl⟩
  | interrupted =>
      obtain ⟨s, holds, ended | ⟨unfinished, -⟩⟩ := h
      · obtain rfl : Job.Outcome.interrupted = o := by simpa [ended] using ends s holds.found
        exact ⟨⟨s, holds, .inl ended⟩, .inl rfl⟩
      · have ended := ends s holds.found
        simp [unfinished] at ended
  | destroyed => cases o <;> exact ⟨h, .inr rfl⟩

end Cluster

/-! ## Moves without the cluster -/

/-- The moves by which the state of a handle does not change. -/
def Move.isQuiet : Move → Bool
  | answer _ _ | deliver _ => false
  | _ => true

namespace Crowd

variable {s : Crowd} {m : Move}

lemma Orderly.state_quiet (h : s.Orderly) (quiet : m.isQuiet = true) :
    (s.move m).control.state = s.control.state := by
  rcases h.changes m with same | changes
  · exact same
  · cases changes <;> simp [Move.isQuiet] at quiet

/-- A call stays in flight until it is answered. -/
lemma Orderly.calls_silent (h : s.Orderly) (silent : ∀ n a, m ≠ .answer n a) {n : ℕ} {i : Intent}
    (calling : s.Calls n i) : (s.move m).Calls n i := by
  have steps := h.steps m
  generalize s.move m = t at steps ⊢
  cases steps with
  | idle | watched => exact calling
  | entered j =>
      have here := (List.getElem?_eq_some_iff.mp calling).1
      exact (List.getElem?_append_left here).trans calling
  | aside found =>
      refine (calls_advance found).mpr (.inr ⟨?_, calling⟩)
      rintro rfl
      simp [Calls, found] at calling
  | issued found free | delivered arrived free => exact absurd calling (h.nobody_of_free free)
  | refused calling' e => exact absurd rfl (silent _ _)
  | acknowledged calling' => exact absurd rfl (silent _ _)

/-- No operation is called but by its first step. -/
lemma Orderly.intents_move (h : s.Orderly) {u : Undertaking} (member : u ∈ (s.move m).tasks) :
    (∃ v ∈ s.tasks, v.intent = u.intent) ∨ m = .enter u.intent := by
  have set : ∀ {n : ℕ} {i : Intent} {p q : Progress}, s.tasks[n]? = some ⟨i, p⟩ →
      u ∈ s.tasks.set n ⟨i, q⟩ → ∃ v ∈ s.tasks, v.intent = u.intent := by
    intro n i p q found member
    rcases List.mem_or_eq_of_mem_set member with before | rfl
    · exact ⟨u, before, rfl⟩
    · exact ⟨_, List.mem_of_getElem? found, rfl⟩
  have steps := h.steps m
  generalize s.move m = t at steps member
  cases steps with
  | idle | watched | delivered => exact .inl ⟨u, member, rfl⟩
  | entered i =>
      rcases List.mem_append.mp member with before | new
      · exact .inl ⟨u, before, rfl⟩
      · obtain rfl := List.mem_singleton.mp new
        exact .inr rfl
  | aside found | issued found => exact .inl (set found member)
  | refused calling e | acknowledged calling legal => exact .inl (set calling member)

/-- Only an execution that has been started is watched. -/
lemma Orderly.rank_of_executed (h : s.Orderly) {n : ℕ} {t : State}
    (executed : s.tasks[n]? = some ⟨.execute, .finished (.ok t)⟩) : 4 ≤ s.control.state.rank := by
  rcases h.ended executed with acknowledged | ⟨destroy, -⟩
  · exact h.behind _ acknowledged
  · simp at destroy

lemma watchers_acquire (s : Crowd) (n : ℕ) : (s.move (.acquire n)).watchers = s.watchers := by
  simp only [move]
  split
  · rfl
  · rfl

lemma watchers_answer (s : Crowd) (n : ℕ) (a : Except ClusterError Unit) :
    (s.move (.answer n a)).watchers = s.watchers := by
  simp only [move]
  (repeat' split) <;> rfl

lemma watchers_cancel (s : Crowd) (n : ℕ) : (s.move (.cancel n)).watchers = s.watchers := by
  simp only [move]
  (repeat' split) <;> rfl

/-- An outcome is delivered while the lock is free, if it has arrived. -/
lemma deliver_cases (s : Crowd) (k : ℕ) :
    s.move (.deliver k) = s ∨ ∃ o, s.watchers[k]? = some (.arrived o) ∧ s.control.locked = false
      ∧ s.move (.deliver k) = { s with
        control := { s.control with
          state := (s.control.state.next? (Control.eventOf o)).getD s.control.state }
        watchers := s.watchers.set k (.ended (.ok o)) } := by
  simp only [move]
  split
  next o arrived =>
    split_ifs with locked
    · exact .inl rfl
    · refine .inr ⟨o, arrived, by simpa using locked, ?_⟩
      unfold Control.deliver
      cases s.control.state.next? (Control.eventOf o) <;> rfl
  next => exact .inl rfl

end Crowd

/-- Of the calls that may come after the start, only the interrupt leaves the job alive. -/
lemma Intent.eq_interrupt {state next : State} {i : Intent} (legal : state.next? i.event = some next)
    (stays : i ≠ .destroy) (late : 4 ≤ state.rank) : i = .interrupt := by
  cases i <;> cases state <;> simp_all [State.next?, State.rank, Intent.event]

/-! ## The invariant -/

/-- What a watcher that waits may still be told. -/
def Vigil.Fair (c : Cluster) (job : String) : Vigil → Prop
  | .reading => c.run? job = none
  | .waiting (.waiting _ execution) => ∀ s, c.run? job = some s → s.execution = execution
  | .waiting (.answered (.ok o)) => c.Ends job o
  | .waiting (.answered (.error _)) => True

/-- A watcher that begins to wait waits for the execution in the slot, or for the reading of the record. -/
lemma Scene.vigil_fair (s : Scene) : s.vigil.Fair s.cluster s.job := by
  unfold vigil
  cases found : s.cluster.slots.find? s.job with
  | some slot =>
      intro t there
      obtain ⟨slot', found', rfl⟩ := Cluster.run?_eq_some.mp there
      obtain rfl := Option.some.inj (found.symm.trans found')
      rfl
  | none => exact Cluster.run?_eq_none.mpr found

/-- Where there is no slot, any outcome may be read. -/
lemma Scene.reading_fair (s : Scene) (free : s.cluster.run? s.job = none) :
    s.reading.Fair s.cluster s.job := by
  unfold reading
  cases ((Operation.storedOutcome s.job).run.run s.cluster).1 with
  | ok o =>
      intro t there
      exact absurd (free.symm.trans there) (by simp)
  | error e => trivial

lemma Vigil.Fair.follows {v : Vigil} {c d : Cluster} {job : String} (h : v.Fair c job)
    (follows : Cluster.Follows job c d) : v.Fair d job := by
  cases v with
  | reading =>
      by_contra there
      obtain ⟨s, found⟩ := Option.ne_none_iff_exists'.mp there
      obtain ⟨before, found', -⟩ := follows s found
      rw [show c.run? job = none from h] at found'
      simp at found'
  | waiting w =>
      cases w with
      | waiting key execution =>
          intro s found
          obtain ⟨before, found', same, -⟩ := follows s found
          exact same.symm.trans (h before found')
      | answered answer =>
          cases answer with
          | ok o => exact Cluster.Ends.follows h follows
          | error e => trivial

/-- **The answer to a wait** is the outcome of the execution in the slot, if there is one. -/
lemma Vigil.Fair.poll {c : Cluster} {job : String} {w : Waiter} {o : Job.Outcome}
    (h : (Vigil.waiting w).Fair c job) (regular : c.Regular job) (told : w.poll c = some (.ok o)) :
    c.Ends job o := by
  cases w with
  | waiting key execution =>
      intro s found
      rcases regular with free | ⟨t, holds⟩
      · exact absurd (free.symm.trans found) (by simp)
      · obtain rfl := Option.some.inj (holds.found.symm.trans found)
        rw [← holds.told, h t found]
        simp only [Waiter.poll] at told
        split at told
        next outcome published =>
          rw [published]
          simpa using told
        next =>
          split_ifs at told
          simp at told
  | answered answer =>
      obtain rfl : answer = .ok o := by simpa [Waiter.poll] using told
      exact h

/-- What a watcher knows is true. -/
def Watcher.Fair (c : Cluster) (h : Control) : Watcher → Prop
  | .arrived o => c.Ends h.job o
  | .ended (.ok o) => h.state = Control.stateOf o ∨ h.state = .destroyed
  | _ => True

lemma Watcher.Fair.follows {w : Watcher} {c d : Cluster} {h : Control} (fair : w.Fair c h)
    (follows : Cluster.Follows h.job c d) : w.Fair d h := by
  cases w with
  | awaiting => trivial
  | arrived o => exact Cluster.Ends.follows fair follows
  | ended result =>
      cases result with
      | ok o => exact fair
      | error e => trivial

/-- After one of the watchers has gone on, nothing is new but what this one knows. -/
lemma Watcher.fair_of_set {watchers : List Watcher} {k j : ℕ} {w v : Watcher}
    (found : (watchers.set k w)[j]? = some v) {rank : ℕ} (late : 4 ≤ rank) {c : Cluster} {h : Control}
    (fair : w.Fair c h) : watchers[j]? = some v ∨ 4 ≤ rank ∧ v.Fair c h := by
  rw [List.getElem?_set] at found
  split_ifs at found
  · obtain rfl := Option.some.inj found
    exact .inr ⟨late, fair⟩
  · exact .inl found

/-- What a watcher knows stays true, whatever the handle does. -/
lemma Watcher.Fair.move {w : Watcher} {c : Cluster} {s : Crowd} (fair : w.Fair c s.control)
    (orderly : s.Orderly) (m : Move) : w.Fair c (s.move m).control := by
  cases w with
  | awaiting => trivial
  | arrived o =>
      rw [Fair, orderly.job_move m]
      exact fair
  | ended result =>
      cases result with
      | error e => trivial
      | ok o =>
          have forward : ∀ {e t}, s.control.state.next? e = some t → t = .destroyed := by
            intro e t legal
            rcases fair with same | destroyed
            · rw [same] at legal
              exact Control.next_stateOf legal
            · exact absurd destroyed (State.ne_destroyed_of_next legal)
          rcases orderly.changes m with same | changes
          · rw [Fair, same]
            exact fair
          · cases changes with
            | acknowledged calling legal | delivered arrived free legal => exact .inr (forward legal)

/-- **Where the job stands** in the cluster, with a call in flight or without. -/
inductive Crowd.Agrees (s : Crowd) (c : Cluster) : Option Service → Prop where
  | idle (stands : c.Stands s.control.job s.control.state) : s.Agrees c none
  | refused {n : ℕ} {i : Intent} {e : ClusterError} (calling : s.Calls n i)
      (stands : c.Stands s.control.job s.control.state) : s.Agrees c (some (.given (.error e)))
  /-- The job stands where the handle will have it when the answer has arrived. -/
  | done {n : ℕ} {i : Intent} {next : State} (calling : s.Calls n i)
      (legal : s.control.state.next? i.event = some next) (stands : c.Stands s.control.job next) :
      s.Agrees c (some (.given (.ok ())))
  | halved {n : ℕ} (calling : s.Calls n .destroy) (free : c.run? s.control.job = none) :
      s.Agrees c (some .removed)

namespace Crowd.Agrees

variable {s : Crowd} {c d : Cluster} {service : Option Service}

/-- As long as the lock is free, the cluster is idle. -/
lemma idle_of_free (h : s.Agrees c service) (orderly : s.Orderly)
    (free : s.control.locked = false) : service = none := by
  cases h with
  | idle => rfl
  | refused calling | done calling | halved calling =>
      exact absurd calling (orderly.nobody_of_free free)

lemma stands (h : s.Agrees c none) : c.Stands s.control.job s.control.state := by
  cases h with
  | idle stands => exact stands

lemma regular (h : s.Agrees c service) : c.Regular s.control.job := by
  cases h with
  | idle stands | refused _ stands | done _ _ stands => exact stands.regular
  | halved _ free => exact .inl free

lemma goes (h : s.Agrees c service) (goes : Cluster.Goes s.control.job c d) : s.Agrees d service := by
  cases h with
  | idle stands => exact .idle (goes.stands stands)
  | refused calling stands => exact .refused calling (goes.stands stands)
  | done calling legal stands => exact .done calling legal (goes.stands stands)
  | halved calling free =>
      exact .halved calling (Vigil.Fair.follows (v := .reading) free (goes.follows (.inl free)))

/-- **A quiet step** leaves the state and the call in flight. -/
lemma quiet (h : s.Agrees c service) (orderly : s.Orderly) {m : Move} (quiet : m.isQuiet = true) :
    (s.move m).Agrees c service := by
  have state := orderly.state_quiet quiet
  have drives := orderly.job_move m
  have still : ∀ {n i}, s.Calls n i → (s.move m).Calls n i := by
    refine fun calling => orderly.calls_silent ?_ calling
    rintro n a rfl
    simp [Move.isQuiet] at quiet
  cases h with
  | idle stands => exact .idle (by rwa [drives, state])
  | refused calling stands => exact .refused (still calling) (by rwa [drives, state])
  | done calling legal stands => exact .done (still calling) (by rwa [state]) (by rwa [drives])
  | halved calling free => exact .halved (still calling) (by rwa [drives])

/-- **The answer arrives**, and the handle has the job where it stands. -/
lemma answer {a : Except ClusterError Unit} (h : s.Agrees c (some (.given a))) (orderly : s.Orderly)
    {n : ℕ} {i : Intent} (calling : s.Calls n i) : (s.move (.answer n a)).Agrees c none := by
  have drives := orderly.job_move (.answer n a)
  obtain ⟨next, legal, acknowledged, refused⟩ := orderly.answers calling
  cases h with
  | @refused _ _ e _ stands => exact .idle (by rwa [drives, (refused e).2])
  | done calling' legal' stands =>
      obtain rfl := orderly.alone calling calling'
      obtain rfl : i = _ := by simpa [Calls] using (calling.symm.trans calling')
      obtain rfl := Option.some.inj (legal.symm.trans legal')
      exact .idle (by rwa [drives, acknowledged.2])

end Crowd.Agrees

/-- **What holds between two beats.** -/
structure Scene.Faithful (job : String) (s : Scene) : Prop where
  orderly : s.crowd.Orderly
  drives : s.crowd.control.job = job
  fits : ∀ u ∈ s.crowd.tasks, u.intent.call.Fits
  tidy : s.cluster.Tidy
  agrees : s.crowd.Agrees s.cluster s.service
  watchers : ∀ {k : ℕ} {w}, s.crowd.watchers[k]? = some w →
    4 ≤ s.crowd.control.state.rank ∧ w.Fair s.cluster s.crowd.control
  vigils : ∀ {k v}, s.vigils k = some v →
    4 ≤ s.crowd.control.state.rank ∧ v.Fair s.cluster s.crowd.control.job

namespace Scene

variable {s : Scene} {job : String}

lemma take_of_stays {i : Intent} (stays : i ≠ .destroy) (now : ℕ) :
    s.take i now = ⟨s.crowd, (s.cluster.issue now s.job i.call).2,
      (s.cluster.issue now s.job i.call).1.service, s.vigils⟩ := by
  cases i <;> first | rfl | exact absurd rfl stays

namespace Faithful

/-! ### Beats of the cluster -/

/-- The cluster goes on, and perhaps takes up a call or has carried it out. -/
lemma cluster (h : s.Faithful job) {d : Cluster} {service : Option Service} (tidy : d.Tidy)
    (agrees : s.crowd.Agrees d service)
    (follows : 4 ≤ s.crowd.control.state.rank → Cluster.Follows s.crowd.control.job s.cluster d) :
    Faithful job ⟨s.crowd, d, service, s.vigils⟩ where
  orderly := h.orderly
  drives := h.drives
  fits := h.fits
  tidy := tidy
  agrees := agrees
  watchers := by
    intro k w found
    obtain ⟨late, fair⟩ := h.watchers found
    exact ⟨late, fair.follows (follows late)⟩
  vigils := by
    intro k v found
    obtain ⟨late, fair⟩ := h.vigils found
    exact ⟨late, fair.follows (follows late)⟩

/-- **The cluster goes on** without the handle. -/
lemma goes (h : s.Faithful job) {d : Cluster} (goes : Cluster.Goes s.crowd.control.job s.cluster d) :
    Faithful job ⟨s.crowd, d, s.service, s.vigils⟩ :=
  h.cluster goes.tidy (h.agrees.goes goes) fun _ => goes.follows h.agrees.regular

/-- What spares the job is no concern of the handle. -/
lemma spares (h : s.Faithful job) {d : Cluster}
    (spares : Cluster.Spares s.crowd.control.job s.cluster d) (tidy : d.Tidy) :
    Faithful job ⟨s.crowd, d, s.service, s.vigils⟩ :=
  h.goes (spares.goes h.tidy tidy)

/-- A call that is refused, by the cluster or before it reaches it. -/
lemma refuse (h : s.Faithful job) {n : ℕ} {i : Intent} (calling : s.crowd.Calls n i)
    (idle : s.service = none) (e : ClusterError) :
    Faithful job ⟨s.crowd, s.cluster, some (.given (.error e)), s.vigils⟩ :=
  h.cluster h.tidy (.refused calling (idle ▸ h.agrees).stands) fun _ =>
    (Cluster.Spares.refl ..).follows

/-- **The cluster takes up a call**: the job stands where the answer will lead, or where it stood. -/
lemma take (h : s.Faithful job) {n : ℕ} {i : Intent} (calling : s.crowd.Calls n i)
    (idle : s.service = none) (now : UInt64) : (s.take i now.toNat).Faithful job := by
  have stands := (idle ▸ h.agrees).stands
  by_cases stays : i = .destroy
  · subst stays
    simp only [Scene.take]
    split_ifs with valid
    · have free : (s.cluster.removeSlot s.job).run? s.job = none := by simp [Cluster.run?]
      refine h.cluster (h.tidy.perform (a := .removeSlot s.job) trivial) (.halved calling free) ?_
      intro _ slot found
      exact absurd (free.symm.trans found) (by simp)
    · exact h.refuse calling idle _
  · have actions_nil := i.actions_eq_nil_iff s.cluster s.job now.toNat
    have effect := Request.effect
      ⟨s.job, i.call, now, h.fits _ (List.mem_of_getElem? calling)⟩ s.cluster
    simp only [Request.actions] at effect
    rw [take_of_stays stays, Cluster.issue_eq,
      Cluster.issue_answer _ _ _ (by cases i <;> simp [Intent.call])]
    cases answer : (Operation.plan s.cluster (i.call.operation s.job now.toNat)).1 with
    | error e =>
        rw [actions_nil.mpr ⟨e, answer⟩]
        exact h.refuse calling idle e
    | ok reply =>
        have changed : i.call.actions s.cluster s.job now.toNat ≠ [] := by
          rw [ne_eq, actions_nil, answer]
          simp
        obtain ⟨next, legal⟩ := h.orderly.legal calling
        refine h.cluster (h.tidy.after fun a member => (h.tidy.effect effect a member).2)
          (.done calling legal (stands.effect h.tidy effect changed legal stays)) ?_
        intro late
        obtain rfl := Intent.eq_interrupt legal stays late
        generalize Intent.interrupt.call.actions s.cluster s.job now.toNat = actions at effect
        cases effect with
        | nothing => exact (Cluster.Spares.refl ..).follows
        | interrupt found unfinished => exact Cluster.follows_requestInterrupt h.agrees.regular

/-- The second half of a destruction. -/
lemma purge (h : s.Faithful job) (removed : s.service = some .removed) :
    Faithful job ⟨s.crowd, { s.cluster with store := (s.cluster.store.purge s.job).2 },
      some (.given (.ok ())), s.vigils⟩ := by
  have agrees := h.agrees
  rw [removed] at agrees
  cases agrees with
  | @halved n calling free =>
      obtain ⟨next, legal⟩ := h.orderly.legal calling
      obtain rfl : next = .destroyed := by
        cases state : s.crowd.control.state <;> simp_all [State.next?, Intent.event]
      refine h.cluster (h.tidy.perform (a := .purge s.job) trivial)
        (.done calling legal (Cluster.stands_destroyed free)) ?_
      intro _ slot found
      exact absurd (free.symm.trans found) (by simp)

/-! ### Beats of the handle -/

/-- A step of an operation or of a watcher. -/
lemma crowd (h : s.Faithful job) {m : Move} (fits : ∀ i, m = .enter i → i.call.Fits)
    {service : Option Service} (agrees : (s.crowd.move m).Agrees s.cluster service)
    (watchers : ∀ {k : ℕ} {w}, (s.crowd.move m).watchers[k]? = some w →
      s.crowd.watchers[k]? = some w
        ∨ 4 ≤ s.crowd.control.state.rank ∧ w.Fair s.cluster (s.crowd.move m).control) :
    Faithful job ⟨s.crowd.move m, s.cluster, service, s.vigils⟩ where
  orderly := h.orderly.move m
  drives := (h.orderly.job_move m).trans h.drives
  fits := by
    intro u member
    rcases h.orderly.intents_move member with ⟨v, before, same⟩ | entered
    · exact same ▸ h.fits v before
    · exact fits _ entered
  tidy := h.tidy
  agrees := agrees
  watchers := by
    intro k w found
    have forward := h.orderly.rank_mono m
    rcases watchers found with before | ⟨late, fair⟩
    · obtain ⟨late, fair⟩ := h.watchers before
      exact ⟨late.trans forward, fair.move h.orderly m⟩
    · exact ⟨late.trans forward, fair⟩
  vigils := by
    intro k v found
    obtain ⟨late, fair⟩ := h.vigils found
    exact ⟨late.trans (h.orderly.rank_mono m), (h.orderly.job_move m).symm ▸ fair⟩

lemma quiet (h : s.Faithful job) {m : Move} (quiet : m.isQuiet = true)
    (fits : ∀ i, m = .enter i → i.call.Fits)
    (watchers : ∀ {k : ℕ} {w}, (s.crowd.move m).watchers[k]? = some w →
      s.crowd.watchers[k]? = some w
        ∨ 4 ≤ s.crowd.control.state.rank ∧ w.Fair s.cluster (s.crowd.move m).control) :
    (s.step m).Faithful job :=
  h.crowd fits (h.agrees.quiet h.orderly quiet) watchers

/-- The wait of a watcher goes on. -/
lemma keep (h : s.Faithful job) {k : ℕ} {v : Vigil} (late : 4 ≤ s.crowd.control.state.rank)
    (fair : v.Fair s.cluster s.crowd.control.job) : (s.keep k v).Faithful job where
  orderly := h.orderly
  drives := h.drives
  fits := h.fits
  tidy := h.tidy
  agrees := h.agrees
  watchers := h.watchers
  vigils := by
    intro j u found
    simp only [Scene.keep, Function.update_apply] at found
    split_ifs at found
    · obtain rfl := Option.some.inj found
      exact ⟨late, fair⟩
    · exact h.vigils found

/-- A watcher is answered, and told the truth. -/
lemma outcome (h : s.Faithful job) (k : ℕ) {a : Except ClusterError Job.Outcome}
    (ends : ∀ o, a = .ok o → s.cluster.Ends s.crowd.control.job o) :
    (s.step (.outcome k a)).Faithful job := by
  refine h.quiet rfl (by simp) fun {j w} found => ?_
  simp only [Crowd.move] at found ⊢
  split at found
  next awaiting =>
    have late := (h.watchers awaiting).1
    cases a with
    | ok o => exact Watcher.fair_of_set found late (ends o rfl)
    | error e => exact Watcher.fair_of_set found late trivial
  next => exact .inl found

/-- **An outcome is delivered** while the cluster is idle. -/
lemma deliver (h : s.Faithful job) (k : ℕ) : (s.step (.deliver k)).Faithful job := by
  rcases s.crowd.deliver_cases k with same | ⟨o, found, free, after⟩
  · rw [step, same]
    exact h
  · obtain ⟨late, ends⟩ := h.watchers found
    have idle := h.agrees.idle_of_free h.orderly free
    obtain ⟨stands, told⟩ := (idle ▸ h.agrees).stands.delivered ends late
    have agrees : (s.crowd.move (.deliver k)).Agrees s.cluster s.service := by
      rw [idle, after]
      exact .idle stands
    refine h.crowd (by simp) agrees fun {j w} there => ?_
    rw [after] at there ⊢
    exact Watcher.fair_of_set there late told

/-- A watcher is put on an execution, which has been started. -/
lemma watch (h : s.Faithful job) (n : ℕ) : (s.step (.watch n)).Faithful job := by
  refine h.quiet rfl (by simp) fun {k w} found => ?_
  simp only [Crowd.move] at found ⊢
  split at found
  next executed =>
    rcases append_getElem? found with before | rfl
    · exact .inl before
    · exact .inr ⟨h.orderly.rank_of_executed executed, trivial⟩
  next => exact .inl found

/-- A watcher that is cancelled has been told nothing. -/
lemma cancelWatcher (h : s.Faithful job) (k : ℕ) : (s.step (.cancelWatcher k)).Faithful job := by
  refine h.quiet rfl (by simp) fun {j w} found => ?_
  simp only [Crowd.move] at found ⊢
  split_ifs at found
  · exact .inl found
  · split at found
    next awaiting => exact Watcher.fair_of_set found (h.watchers awaiting).1 trivial
    next arrived => exact Watcher.fair_of_set found (h.watchers arrived).1 trivial
    next => exact .inl found

/-- **Every beat** keeps the invariant. -/
theorem move (h : s.Faithful job) (b : Beat) : (s.move b).Faithful job := by
  cases b with
  | enter i fits =>
      refine h.quiet rfl ?_ fun found => .inl found
      rintro j ⟨⟩
      exact fits
  | acquire n =>
      exact h.quiet rfl (by simp) fun found => .inl ((s.crowd.watchers_acquire n) ▸ found)
  | cancel n =>
      exact h.quiet rfl (by simp) fun found => .inl ((s.crowd.watchers_cancel n) ▸ found)
  | serve n now =>
      simp only [Scene.move]
      split
      next i found idle => exact h.take found idle now
      next => exact h
  | purge =>
      simp only [Scene.move]
      split
      next removed => exact h.purge removed
      next => exact h
  | fail n e =>
      simp only [Scene.move]
      split
      next i found idle => exact h.refuse found idle e
      next => exact h
  | answer n =>
      simp only [Scene.move]
      split
      next i a found given =>
        have agrees := h.agrees
        rw [given] at agrees
        exact h.crowd (by simp) (agrees.answer h.orderly found) fun there =>
          .inl ((s.crowd.watchers_answer n a) ▸ there)
      next => exact h
  | fetch now =>
      have same : (s.cluster.issue now s.job .accumulators).2 = s.cluster := by
        rw [Cluster.issue_eq, Call.actions_eq]
        rfl
      simp only [Scene.move, same]
      exact h
  | watch n => exact h.watch n
  | await k =>
      simp only [Scene.move]
      split
      next awaiting new => exact h.keep (h.watchers awaiting).1 s.vigil_fair
      next => exact h
  | read k =>
      simp only [Scene.move]
      split
      next reading =>
        obtain ⟨late, free⟩ := h.vigils reading
        exact h.keep late (s.reading_fair free)
      next => exact h
  | look k =>
      simp only [Scene.move]
      split
      next w waiting =>
        split
        next a told =>
          refine h.outcome k ?_
          rintro o rfl
          exact (h.vigils waiting).2.poll h.agrees.regular told
        next => exact h
      next => exact h
  | lose k e => exact h.outcome k (by simp)
  | deliver k => exact h.deliver k
  | cancelWatcher k => exact h.cancelWatcher k
  | work execution =>
      exact h.spares (.resolved ..)
        (h.tidy.of_store (h.tidy.numbered.resolved execution) (Cluster.resolved_store ..))
  | publish execution now =>
      simp only [Scene.move]
      split
      next t found => exact h.goes (h.tidy.goes_publishTask (List.mem_of_find?_eq_some found) now)
      next => exact h
  | write execution w => exact h.spares (.writeSink ..) (h.tidy.of_store (h.tidy.numbered.writeSink execution w) rfl)
  | openGate key =>
      exact h.spares (.openGate ..)
        (h.tidy.of_store (h.tidy.numbered.openGate key) (Cluster.openGate_store ..))
  | exchange executor =>
      have numbered := h.tidy.numbered
      refine h.spares ?_ (h.tidy.of_store ⟨numbered.tasks, numbered.slots, numbered.published⟩ rfl)
      exact .of_slots rfl rfl (fun t member own => ⟨t, member, own, rfl⟩) rfl rfl fun found =>
        ⟨_, found, rfl⟩
  | other a fits =>
      simp only [Scene.move]
      split_ifs with own
      · exact h
      · exact h.spares (.perform own s.cluster) (h.tidy.perform fits)

theorem run (h : s.Faithful job) (beats : List Beat) : (s.run beats).Faithful job := by
  induction beats generalizing s with
  | nil => exact h
  | cons b beats ih => exact ih (h.move b)

/-- A new handle for a job that is not there, in a cluster between two turns. -/
lemma new {w : World} (orderly : w.Orderly)
    (missing : w.cluster.Lacks job) (unattended : ∀ t ∈ w.cluster.tasks, t.job ≠ job) :
    (Scene.new job w.cluster).Faithful job where
  orderly := .new job
  drives := rfl
  fits := by simp [Scene.new, Crowd.new]
  tidy := orderly.attended.tidy
  agrees := .idle ⟨missing, Cluster.run?_eq_none.mpr (orderly.attended.free_of_lacks missing), unattended⟩
  watchers := by simp [Scene.new, Crowd.new]
  vigils := by simp [Scene.new]

end Faithful

/-! ## Runs -/

/-- **The state of a handle shows the record of its job.**  Take any run of a cluster after which there is
no record of a job and no task of it, as when its name has not been used, and a new handle for this job.
Then take any beats of the handle, of the tasks, and of all others who leave the job alone, with any calls
failing before they reach the cluster.  As soon as the lock is free, the state says how the job stands in the
cluster.  And if a watcher has ended with an outcome, then the state is that of the outcome, unless the job
has been destroyed. -/
theorem handle_shows_record (executor : Executor) (turns : List Turn) (job : String)
    (missing : ((World.start executor).run turns).cluster.Lacks job)
    (unattended : ∀ t ∈ ((World.start executor).run turns).cluster.tasks, t.job ≠ job)
    (beats : List Beat) :
    let s := (Scene.new job ((World.start executor).run turns).cluster).run beats
    (s.crowd.control.locked = false → s.cluster.Reflects job s.state) ∧
    ∀ (k : ℕ) o, s.crowd.watchers[k]? = some (.ended (.ok o)) →
      s.state = Control.stateOf o ∨ s.state = .destroyed := by
  intro s
  have orderly := (World.Orderly.start executor).run turns
  have faithful : s.Faithful job := (Faithful.new orderly missing unattended).run beats
  refine ⟨fun free => ?_, fun k o ended => (faithful.watchers ended).2⟩
  have idle := faithful.agrees.idle_of_free faithful.orderly free
  have stands := (idle ▸ faithful.agrees).stands
  rw [faithful.drives] at stands
  exact stands.reflects

/-! ### An execution that is interrupted -/

/-- The operations of a handle that starts an execution. -/
def starting : List Beat :=
  operation 0 (.init Cluster.plainConfig) Cluster.plainConfig_fits 0 ++ operation 1 (.deploy []) trivial 0
    ++ operation 2 (.submit Cluster.plainGraph) trivial 0 ++ operation 3 .execute trivial 0

/-- The handle then. -/
def startedCrowd (job : String) : Crowd :=
  ((((Crowd.new job).accepted (.init Cluster.plainConfig) .initialized).accepted (.deploy []) .deployed).accepted
    (.submit Cluster.plainGraph) .submitted).accepted .execute .running

/-- The handle of a new job that starts its execution, and the cluster. -/
lemma run_starting {c : Cluster} {job : String} (missing : c.Lacks job) (valid : Job.isName job = true)
    (none_yet : c.store.listResources job = .ok []) :
    (Scene.new job c).run starting
      = ⟨startedCrowd job, c.opened job (0 : UInt64).toNat, none, fun _ => none⟩ := by
  have accepts := Cluster.accepts_opening missing valid none_yet 0
  rw [Cluster.opened]
  generalize Cluster.openingSteps job (0 : UInt64).toNat = taken at accepts ⊢
  rw [Cluster.opening] at accepts
  obtain _ | @⟨_, _, steps₁, _, _, register, _ | @⟨_, _, steps₂, _, _, deploy, _ | @⟨_, _, steps₃, _, _, submit,
    _ | @⟨_, _, steps₄, _, _, start, _ | _⟩⟩⟩⟩ := accepts
  let u₁ := (Crowd.new job).accepted (.init Cluster.plainConfig) .initialized
  let u₂ := u₁.accepted (.deploy []) .deployed
  let u₃ := u₂.accepted (.submit Cluster.plainGraph) .submitted
  have first : (Scene.new job c).run (operation 0 (.init Cluster.plainConfig) Cluster.plainConfig_fits 0)
      = ⟨u₁, c.after steps₁, none, fun _ => none⟩ :=
    run_operation (u := .new job) (i := .init Cluster.plainConfig) _ (by simp) rfl rfl rfl register
  have second : Scene.run ⟨u₁, _, none, fun _ => none⟩ (operation 1 (.deploy []) trivial 0) = _ :=
    run_operation (u := u₁) (i := .deploy []) (t := .deployed) _ (by simp) rfl rfl rfl deploy
  have third : Scene.run ⟨u₂, _, none, fun _ => none⟩ (operation 2 (.submit Cluster.plainGraph) trivial 0) = _ :=
    run_operation (u := u₂) (i := .submit Cluster.plainGraph) (t := .submitted) _ (by simp) rfl rfl rfl submit
  have fourth : Scene.run ⟨u₃, _, none, fun _ => none⟩ (operation 3 .execute trivial 0) = _ :=
    run_operation (u := u₃) (i := .execute) (t := .running) _ (by simp) rfl rfl rfl start
  rw [starting, run_append, run_append, run_append, first, second, third, fourth]
  simp only [Cluster.after_append, Cluster.after_nil]
  rfl

/-- Somebody waits for the execution, and then it is interrupted. -/
def interrupting : List Beat := [.watch 3, .await 0] ++ operation 4 .interrupt trivial 1

/-- The handle then. -/
def interruptedCrowd (job : String) : Crowd :=
  { startedCrowd job with watchers := [.awaiting] }.accepted .interrupt .interrupted

lemma run_interrupting {c : Cluster} {job : String} {slot : RunSlot} (own : c.slots.find? job = some slot)
    (unfinished : slot.outcome = none) :
    Scene.run ⟨startedCrowd job, c, none, fun _ => none⟩ interrupting
      = ⟨interruptedCrowd job, c.requestInterrupt job, none,
          Function.update (fun _ => none) 0 (some (.waiting (.waiting job slot.execution)))⟩ := by
  have waits : Scene.run ⟨startedCrowd job, c, none, fun _ => none⟩ [.watch 3, .await 0]
      = ⟨{ startedCrowd job with watchers := [.awaiting] }, c, none,
          Function.update (fun _ => none) 0 (some (.waiting (.waiting job slot.execution)))⟩ := by
    have looks : Scene.vigil ⟨{ startedCrowd job with watchers := [.awaiting] }, c, none, fun _ => none⟩
        = .waiting (.waiting job slot.execution) := by
      have drives : Scene.job ⟨{ startedCrowd job with watchers := [.awaiting] }, c, none, fun _ => none⟩ = job := rfl
      simp only [vigil, drives, own]
    rw [← looks]
    rfl
  rw [interrupting, run_append, waits]
  exact run_operation (u := { startedCrowd job with watchers := [.awaiting] }) (i := .interrupt)
    (t := .interrupted) _ (by simp) rfl rfl rfl (Cluster.plan_interrupt_unfinished own unfinished _)

/-- The execution resolves and publishes, and whoever waits is told. -/
def delivering : List Beat := [.work 0, .publish 0 2] ++ [.look 0, .deliver 0]

lemma run_delivering {u : Crowd} {c : Cluster} {v : ℕ → Option Vigil} {w : Waiter} {o : Job.Outcome}
    (waits : v 0 = some (.waiting w)) (told : w.poll (c.play (Cluster.closingTicks 0 2)) = some (.ok o)) :
    Scene.run ⟨u, c, none, v⟩ delivering
      = ⟨u.run [.outcome 0 (.ok o), .deliver 0], c.play (Cluster.closingTicks 0 2), none, v⟩ := by
  have closes : Scene.run ⟨u, c, none, v⟩ [.work 0, .publish 0 2]
      = ⟨u, c.play (Cluster.closingTicks 0 2), none, v⟩ := by
    simp only [run, List.foldl_cons, List.foldl_nil, move, Cluster.play, Cluster.closingTicks, Cluster.react]
    cases (c.resolved 0).findTask 0 <;> rfl
  rw [delivering, run_append, closes]
  simp only [run, List.foldl_cons, List.foldl_nil, move, waits, told]
  rfl

/-- A job that is started, waited for and interrupted.  As soon as the interrupt is acknowledged the state says
so, and the record does not yet; when the execution has published, the record says so too, and the outcome is
delivered. -/
theorem interrupted_job_shown :
    let c := ((World.start Cluster.waiting).run []).cluster
    let asked := (Scene.new "a" c).run (starting ++ interrupting)
    let ended := (Scene.new "a" c).run (starting ++ interrupting ++ delivering)
    c.Lacks "a" ∧ (∀ t ∈ c.tasks, t.job ≠ "a")
      ∧ asked.state = .interrupted ∧ (∃ r, asked.cluster.Stores "a" r ∧ r.status = .running)
      ∧ asked.cluster.Reflects "a" .interrupted
      ∧ ended.crowd.watchers[0]? = some (.ended (.ok .interrupted))
      ∧ ended.state = .interrupted ∧ ∃ r, ended.cluster.Stores "a" r ∧ r.status = .interrupted := by
  have missing : ((World.start Cluster.waiting).run []).cluster.Lacks "a" := rfl
  have unattended : ∀ t ∈ ((World.start Cluster.waiting).run []).cluster.tasks, t.job ≠ "a" := by
    simp [World.start, Cluster.ofStore]
  have shown := (handle_shows_record Cluster.waiting [] "a" missing unattended (starting ++ interrupting)).1
  have shown' := handle_shows_record Cluster.waiting [] "a" missing unattended
    (starting ++ interrupting ++ delivering)
  generalize begun : ((World.start Cluster.waiting).run []).cluster = c at *
  have next : c.nextExecution = 0 := by rw [← begun]; rfl
  have told : c.executor = Cluster.waiting := by rw [← begun]; rfl
  have tasks : c.tasks = [] := by rw [← begun]; rfl
  have opened := run_starting missing (by decide : Job.isName "a" = true) (by rw [← begun]; rfl)
  have running := c.opened_stores "a" 0
  have own := (c.opened_find? "a" (0 : UInt64).toNat "a").trans (if_pos rfl)
  have task : (c.opened "a" (0 : UInt64).toNat).findTask 0
      = some ⟨0, "a", false, .working (.wait (.finish (.ok ())))⟩ := by
    rw [Cluster.findTask, Cluster.opened_tasks, tasks, next, told]
    rfl
  rw [next] at own
  generalize c.opened "a" (0 : UInt64).toNat = d at opened running own task
  obtain ⟨-, finished, outcome⟩ :=
    Cluster.play_closing_interrupted task rfl own rfl running (Cluster.openRecord_sound "a" 0) (le_refl 3) 2
  have asked := run_interrupting own rfl
  have ended := run_delivering (u := interruptedCrowd "a") (c := d.requestInterrupt "a")
    (v := Function.update (fun _ => none) 0 (some (.waiting (.waiting "a" 0)))) (by simp) outcome
  have still : (d.requestInterrupt "a").Stores "a" (Cluster.openRecord "a" (0 : UInt64).toNat) := by
    rwa [Cluster.Stores, Cluster.requestInterrupt, Cluster.modifySlot_store]
  simp only [run_append, opened, asked, ended] at shown shown' ⊢
  have there : ((interruptedCrowd "a").run [.outcome 0 (.ok .interrupted), .deliver 0]).control.state
      ≠ .destroyed := by decide +kernel
  have delivered : ((interruptedCrowd "a").run [.outcome 0 (.ok .interrupted), .deliver 0]).watchers[0]?
      = some (.ended (.ok .interrupted)) := rfl
  refine ⟨missing, unattended, rfl, ⟨_, still, rfl⟩, shown rfl, delivered, ?_, _, finished, rfl⟩
  -- The state is that of the outcome: the job has not been destroyed.
  rcases shown'.2 0 _ delivered with same | gone
  · exact same
  · exact absurd gone there

end Scene

end ControlPlane
