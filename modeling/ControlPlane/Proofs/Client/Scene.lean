import Mathlib
import ControlPlane.Proofs.Client.Desk
import ControlPlane.Proofs.Cluster.Plan
import ControlPlane.Proofs.Cluster.Standing

/-!
# A handle and its cluster

The operations and watchers of one handle, and the cluster in the same process that carries out their
calls.  The cluster works while a call is in flight, and the answer arrives later; in between the tasks of
the cluster take their steps, and other jobs theirs.

* `Service`, `Vigil` — how far the cluster has come with a call, and a watcher with its wait.
* `Scene`, `Beat` — a handle with its cluster, and what may happen next.
* `Scene.serve_purge`, `Scene.await_read` — the halves of a destruction and of the begin of a wait.
* `Handle.perform_served` — an operation of a handle is these beats in a row.
-/

namespace ControlPlane

open Job (State Event)

/-- **How far the cluster has come** with the call in flight. -/
inductive Service where
  /-- The slot of the job that is to be destroyed has been removed. -/
  | removed
  | given (answer : Except ClusterError Unit)

/-- The service of a call that is answered at once. -/
def Issued.service : Issued → Option Service
  | answered answer => some (.given (answer.map fun _ => ()))
  | waiting _ => none

/-- **How far a watcher has come** with its wait. -/
inductive Vigil where
  /-- It has found no slot, and will read the record. -/
  | reading
  | waiting (w : Waiter)

/-- **A handle and its cluster.** -/
structure Scene where
  crowd : Crowd
  cluster : Cluster
  service : Option Service
  /-- The waits of the watchers, by their numbers. -/
  vigils : ℕ → Option Vigil

/-- **What happens next.** -/
inductive Beat where
  | enter (i : Intent) (fits : i.call.Fits)
  | acquire (n : ℕ)
  /-- The cluster carries out the call of an operation, but of a destruction only the first half. -/
  | serve (n : ℕ) (now : UInt64)
  /-- The second half: what is stored of the job goes. -/
  | purge
  /-- The call of an operation fails before it reaches the cluster. -/
  | fail (n : ℕ) (e : ClusterError)
  | answer (n : ℕ)
  | cancel (n : ℕ)
  /-- The counters of the execution are asked for. -/
  | fetch (now : ℕ)
  | watch (n : ℕ)
  /-- A watcher looks for the slot of the job. -/
  | await (k : ℕ)
  /-- A watcher that has found none reads the record. -/
  | read (k : ℕ)
  /-- A watcher looks whether there is an answer. -/
  | look (k : ℕ)
  /-- The call of a watcher fails before it reaches the cluster. -/
  | lose (k : ℕ) (e : ClusterError)
  | deliver (k : ℕ)
  | cancelWatcher (k : ℕ)
  /-- A task is carried on, whosever it is. -/
  | work (execution : ℕ)
  | publish (execution : ℕ) (now : UInt64)
  /-- Somebody who has kept the sink of an execution writes to it. -/
  | write (execution : ℕ) (w : SinkWrite)
  | openGate (job : String)
  | exchange (executor : Executor)
  /-- A step of a call on another job. -/
  | other (a : Action) (fits : a.Fits)

/-- The handle after an operation whose call has been accepted. -/
def Crowd.accepted (s : Crowd) (i : Intent) (next : State) : Crowd :=
  ⟨{ s.control with state := next }, s.tasks ++ [⟨i, .finished (.ok next)⟩], s.watchers,
    s.acknowledged ++ [(s.tasks.length, i)]⟩

lemma Crowd.run_accepted (s : Crowd) {i : Intent} {next : State} (stays : i ≠ .destroy)
    (legal : s.control.state.next? i.event = some next) (free : s.control.locked = false)
    (up : s.control.poolUp = true) :
    s.run [.enter i, .acquire s.tasks.length, .answer s.tasks.length (.ok ())] = s.accepted i next := by
  have entered : s.control.enter i = .queued := by
    cases i <;> simp_all [Control.enter, Control.isDone, Control.check]
  have called := Control.acquire_of_enter entered free
  have answered : ({ s.control with locked := true } : Control).answer i (.ok ())
      = (.ok next, { s.control with state := next }) := by
    cases i <;> simp_all [Control.answer, Control.apply, Control.check, Control.wrapUp]
  simp [run, move, advance, entered, called, answered, accepted]

namespace Scene

/-- The scene of a new handle. -/
def new (job : String) (c : Cluster) : Scene := ⟨.new job, c, none, fun _ => none⟩

def job (s : Scene) : String := s.crowd.control.job

def state (s : Scene) : State := s.crowd.control.state

/-- A step of the operations and watchers, without the cluster. -/
def step (s : Scene) (m : Move) : Scene := { s with crowd := s.crowd.move m }

/-- The scene where the cluster has taken a call up. -/
def take (s : Scene) (i : Intent) (now : ℕ) : Scene :=
  match i with
  | .destroy =>
    if Job.isName s.job then { s with cluster := s.cluster.removeSlot s.job, service := some .removed }
    else { s with service := some (.given (.error (.invalidJobName s.job))) }
  | i =>
    let (issued, c) := s.cluster.issue now s.job i.call
    { s with cluster := c, service := issued.service }

/-- How the wait for the outcome of a job begins. -/
def vigil (s : Scene) : Vigil :=
  match s.cluster.slots.find? s.job with
  | some slot => .waiting (.waiting s.job slot.execution)
  | none => .reading

/-- The wait of a watcher that has read the record. -/
def reading (s : Scene) : Vigil :=
  .waiting (.answered ((Operation.storedOutcome s.job).run.run s.cluster).1)

/-- The scene with the wait of a watcher farther on its way. -/
def keep (s : Scene) (k : ℕ) (v : Vigil) : Scene :=
  { s with vigils := Function.update s.vigils k (some v) }

/-- **One beat.**  A beat that nobody can take changes nothing. -/
def move (s : Scene) : Beat → Scene
  | .enter i _ => s.step (.enter i)
  | .acquire n => s.step (.acquire n)
  | .serve n now =>
    match s.crowd.tasks[n]?, s.service with
    | some ⟨i, .calling⟩, none => s.take i now.toNat
    | _, _ => s
  | .purge =>
    match s.service with
    | some .removed =>
      { s with
        cluster := { s.cluster with store := (s.cluster.store.purge s.job).2 }
        service := some (.given (.ok ())) }
    | _ => s
  | .fail n e =>
    match s.crowd.tasks[n]?, s.service with
    | some ⟨_, .calling⟩, none => { s with service := some (.given (.error e)) }
    | _, _ => s
  | .answer n =>
    match s.crowd.tasks[n]?, s.service with
    | some ⟨_, .calling⟩, some (.given a) => { s.step (.answer n a) with service := none }
    | _, _ => s
  | .cancel n => s.step (.cancel n)
  | .fetch now => { s with cluster := (s.cluster.issue now s.job .accumulators).2 }
  | .watch n => s.step (.watch n)
  | .await k =>
    match s.crowd.watchers[k]?, s.vigils k with
    | some .awaiting, none => s.keep k s.vigil
    | _, _ => s
  | .read k =>
    match s.vigils k with
    | some .reading => s.keep k s.reading
    | _ => s
  | .look k =>
    match s.vigils k with
    | some (.waiting w) =>
      match w.poll s.cluster with
      | some a => s.step (.outcome k a)
      | none => s
    | _ => s
  | .lose k e => s.step (.outcome k (.error e))
  | .deliver k => s.step (.deliver k)
  | .cancelWatcher k => s.step (.cancelWatcher k)
  | .work execution => { s with cluster := s.cluster.resolved execution }
  | .publish execution now =>
    match s.cluster.findTask execution with
    | some t => { s with cluster := s.cluster.publishTask t now.toNat }
    | none => s
  | .write execution w => { s with cluster := s.cluster.writeSink execution w }
  | .openGate job => { s with cluster := (s.cluster.openGate job).2 }
  | .exchange executor => { s with cluster := { s.cluster with executor := executor } }
  | .other a _ => if a.subject? = some s.job then s else { s with cluster := (a.perform s.cluster).2 }

/-- **Beats one after the other**, in any order. -/
def run (s : Scene) (beats : List Beat) : Scene := beats.foldl move s

lemma run_cons (s : Scene) (b : Beat) (beats : List Beat) :
    s.run (b :: beats) = (s.move b).run beats := rfl

lemma run_append (s : Scene) (first second : List Beat) :
    s.run (first ++ second) = (s.run first).run second :=
  List.foldl_append

/-! ## Halves -/

variable {s : Scene}

/-- **The call of an operation** is carried out by its beats, with nobody in between. -/
lemma serve_purge {n : ℕ} {i : Intent} (calling : s.crowd.Calls n i) (idle : s.service = none)
    (now : UInt64) :
    ∃ beats, s.run beats = { s with
      cluster := (s.cluster.issue now.toNat s.job i.call).2
      service := (s.cluster.issue now.toNat s.job i.call).1.service } := by
  have found : s.crowd.tasks[n]? = some ⟨i, .calling⟩ := calling
  cases i with
  | destroy =>
      have atOnce : Call.destroy ≠ .await := by simp
      have answer := s.cluster.issue_answer now.toNat s.job atOnce
      have after := s.cluster.issue_eq now.toNat s.job .destroy
      rw [Call.operation, Operation.plan_map, Operation.plan_destroy] at answer
      rw [Call.actions_eq, Operation.plan_destroy] at after
      simp only [Intent.call, answer, after]
      by_cases valid : Job.isName s.job = true
      · have removed : s.move (.serve n now)
            = { s with cluster := s.cluster.removeSlot s.job, service := some .removed } := by
          simp [move, found, idle, take, valid]
        refine ⟨[.serve n now, .purge], ?_⟩
        show (s.move (.serve n now)).move .purge = _
        rw [removed, if_pos valid]
        rfl
      · refine ⟨[.serve n now], ?_⟩
        simp [run, move, found, idle, take, valid, Issued.service, Except.map]
  | init config | deploy rs | submit graph | execute | interrupt =>
      refine ⟨[.serve n now], ?_⟩
      simp [run, move, found, idle, take]

/-- An operation that is called and answered. -/
def operation (n : ℕ) (i : Intent) (fits : i.call.Fits) (now : UInt64) : List Beat :=
  [.enter i fits, .acquire n, .serve n now, .answer n]

/-- **An operation whose call is accepted**, with nobody in between. -/
lemma run_operation {u : Crowd} {c : Cluster} {v : ℕ → Option Vigil} {i : Intent} {t : State}
    (fits : i.call.Fits) (stays : i ≠ .destroy) (legal : u.control.state.next? i.event = some t)
    (free : u.control.locked = false) (up : u.control.poolUp = true) {now : UInt64} {steps : List Action}
    (planned : Operation.plan c (Call.operation u.control.job now.toNat i.call) = (.ok .done, steps)) :
    Scene.run ⟨u, c, none, v⟩ (operation u.tasks.length i fits now)
      = ⟨u.accepted i t, c.after steps, none, v⟩ := by
  have entered : u.control.enter i = .queued := by
    cases i <;> simp_all [Control.enter, Control.isDone, Control.check]
  have called := Control.acquire_of_enter entered free
  have atOnce : i.call ≠ .await := by cases i <;> simp [Intent.call]
  have issued : c.issue now.toNat u.control.job i.call = (.answered (.ok .done), c.after steps) := by
    refine Prod.ext ?_ ?_
    · rw [Cluster.issue_answer _ _ _ atOnce, planned]
    · rw [Cluster.issue_eq, Call.actions, planned]
  rw [← u.run_accepted stays legal free up]
  set n := u.tasks.length
  set w := (u.move (.enter i)).move (.acquire n) with begun
  have begins : Scene.run ⟨u, c, none, v⟩ [.enter i fits, .acquire n] = ⟨w, c, none, v⟩ := rfl
  have found : w.tasks[n]? = some ⟨i, .calling⟩ := by
    simp [begun, n, Crowd.move, Crowd.advance, entered, called]
  have drives : w.control.job = u.control.job := by
    simp [begun, n, Crowd.move, Crowd.advance, entered, called]
  have taken : Scene.take ⟨w, c, none, v⟩ i now.toNat = ⟨w, c.after steps, some (.given (.ok ())), v⟩ := by
    cases i with
    | destroy => simp at stays
    | init | deploy | submit | execute | interrupt =>
        simp only [take, job, drives, issued]
        rfl
  show (Scene.run ⟨u, c, none, v⟩ [.enter i fits, .acquire n]).run [.serve n now, .answer n] = _
  rw [begins]
  simp only [run, List.foldl_cons, List.foldl_nil, move, found, taken, step]
  rfl

/-- The wait of a watcher begins by its beats, with nobody in between. -/
lemma await_read {k : ℕ} (awaiting : s.crowd.watchers[k]? = some .awaiting) (new : s.vigils k = none) :
    ∃ beats, (s.run beats).cluster = s.cluster
      ∧ (s.run beats).vigils k = some (.waiting (Waiter.start s.cluster s.job)) := by
  have begins : s.move (.await k) = s.keep k s.vigil := by simp [move, awaiting, new]
  rw [Waiter.start_eq]
  cases found : s.cluster.slots.find? s.job with
  | some slot =>
      refine ⟨[.await k], ?_⟩
      show (s.move (.await k)).cluster = _ ∧ (s.move (.await k)).vigils k = _
      simp [begins, keep, vigil, found]
  | none =>
      have goes_on : (s.keep k .reading).move (.read k) = (s.keep k .reading).keep k s.reading := by
        simp [move, keep, reading, job]
      refine ⟨[.await k, .read k], ?_⟩
      show ((s.move (.await k)).move (.read k)).cluster = _ ∧ ((s.move (.await k)).move (.read k)).vigils k = _
      rw [begins, show s.vigil = .reading by simp [vigil, found], goes_on]
      simp [keep, reading, Program.run_eq_plan, Operation.plan]

end Scene

/-! ## An operation with nobody in between -/

/-- A call on a link in the same process fails as the link has been told, or is carried out. -/
lemma Site.ask_inProcess (site : Site) (inProcess : site.link.link = .inProcess) (job : String)
    {call : Call} (atOnce : call ≠ .await) :
    (∃ e, (site.ask job call).1 = .error e ∧ (site.ask job call).2.cluster = site.cluster)
    ∨ (site.cluster.issue site.now job call).1 = .answered (site.ask job call).1
      ∧ (site.cluster.issue site.now job call).2 = (site.ask job call).2.cluster := by
  obtain ⟨⟨link, faults⟩, cluster, now⟩ := site
  obtain rfl : link = .inProcess := inProcess
  have answer := cluster.issue_answer now job atOnce
  rcases next : faults.next call.kind with ⟨_ | e, rest⟩
  · rcases issued : cluster.issue now job call with ⟨i, c⟩
    rw [issued] at answer
    simp only at answer
    subst answer
    refine .inr ⟨?_, ?_⟩ <;>
      simp [ask, issue, FaultyLink.issue, next, Link.issue, issued, Ongoing.poll, Issued.poll]
  · refine .inl ⟨e, ?_, ?_⟩ <;> simp [ask, issue, FaultyLink.issue, next, Ongoing.poll]

namespace Handle

variable (h : Handle) (site : Site) {i : Intent}

/-- An operation that has got the lock asks the cluster once. -/
lemma perform_site_of_called {c : Control} (entered : h.control.enter i = .queued)
    (called : h.control.acquire i = (.calling, c)) :
    (h.perform site i).2.2 = (site.ask h.job i.call).2 := by
  unfold perform
  simp only [entered, called]

/-- **An operation of a handle** in the process of its cluster is its beats, with nobody in between. -/
theorem perform_served (inProcess : site.link.link = .inProcess) {now : UInt64}
    (clock : site.now = now.toNat) (fits : i.call.Fits) (free : h.control.locked = false) {s : Scene}
    (control : s.crowd.control = h.control) (cluster : s.cluster = site.cluster)
    (idle : s.service = none) :
    ∃ beats, let t := s.run beats
      t.crowd.control = (h.perform site i).2.1.control
        ∧ t.crowd.tasks = s.crowd.tasks ++ [⟨i, .finished (h.perform site i).1⟩]
        ∧ t.cluster = (h.perform site i).2.2.cluster ∧ t.service = none := by
  cases entered : h.control.enter i with
  | calling => exact absurd entered Control.enter_ne_calling
  | finished result =>
      have ended : h.perform site i = (result, h, site) := by
        rw [perform, entered]
      rw [← control] at entered
      refine ⟨[.enter i fits], ?_⟩
      rw [ended]
      simp only [Scene.run, List.foldl_cons, List.foldl_nil, Scene.move, Scene.step, Crowd.move, entered]
      simpa using ⟨control, cluster, idle⟩
  | queued =>
      have called := Control.acquire_of_enter entered free
      obtain ⟨result, after⟩ := h.perform_of_called site i entered called
      have asked := h.perform_site_of_called site entered called
      rw [← control] at entered called free
      set n := s.crowd.tasks.length
      set u := (s.crowd.move (.enter i)).move (.acquire n) with at_
      have calling : u.Calls n i := by
        simp [at_, n, Crowd.Calls, Crowd.move, Crowd.advance, entered, called]
      have drives : Scene.job ⟨u, s.cluster, none, s.vigils⟩ = h.job := by
        have same : u.control.job = s.crowd.control.job := by
          simp [at_, n, Crowd.move, Crowd.advance, entered, called]
        exact same.trans (congrArg Control.job control)
      have begins : s.run [.enter i fits, .acquire n] = ⟨u, s.cluster, none, s.vigils⟩ := by
        simp [Scene.run, Scene.move, Scene.step, ← at_, idle]
      -- Whatever the answer is, it arrives at a crowd in which nobody else has taken a step.
      have arrives : ∀ a c, (site.ask h.job i.call).1.map (fun _ => ()) = a →
          c = (site.ask h.job i.call).2.cluster →
          let t := Scene.move ⟨u, c, some (.given a), s.vigils⟩ (.answer n)
          t.crowd.control = (h.perform site i).2.1.control
            ∧ t.crowd.tasks = s.crowd.tasks ++ [⟨i, .finished (h.perform site i).1⟩]
            ∧ t.cluster = (h.perform site i).2.2.cluster ∧ t.service = none := by
        rintro a c rfl rfl
        have alone := s.crowd.alone_of_enter entered free
          ((site.ask h.job i.call).1.map fun _ => ())
        have found : u.tasks[n]? = some ⟨i, .calling⟩ := calling
        have answered : ∀ a c, Scene.move ⟨u, c, some (.given a), s.vigils⟩ (.answer n)
            = ⟨u.move (.answer n a), c, none, s.vigils⟩ := by
          simp [Scene.move, Scene.step, found]
        rw [control] at alone
        rw [answered, result, after, asked]
        exact ⟨alone.1, alone.2, rfl, rfl⟩
      have atOnce : i.call ≠ .await := by cases i <;> simp [Intent.call]
      rcases site.ask_inProcess inProcess h.job atOnce with ⟨e, fault, still⟩ | ⟨answer, through⟩
      · refine ⟨[.enter i fits, .acquire n] ++ [.fail n e, .answer n], ?_⟩
        have found : u.tasks[n]? = some ⟨i, .calling⟩ := calling
        have failed : Scene.move ⟨u, s.cluster, none, s.vigils⟩ (.fail n e)
            = ⟨u, s.cluster, some (.given (.error e)), s.vigils⟩ := by
          simp [Scene.move, found]
        rw [Scene.run_append, begins, Scene.run_cons, failed]
        exact arrives _ _ (by rw [fault]; rfl) (cluster.trans still.symm)
      · obtain ⟨beats, served⟩ := Scene.serve_purge (s := ⟨u, s.cluster, none, s.vigils⟩) calling rfl now
        rw [drives, cluster, ← clock, answer, through] at served
        refine ⟨[.enter i fits, .acquire n] ++ (beats ++ [.answer n]), ?_⟩
        rw [Scene.run_append, begins, Scene.run_append, cluster, served]
        exact arrives _ _ rfl rfl

end Handle

end ControlPlane
