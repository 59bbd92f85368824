import Mathlib
import ControlPlane.Client.Handle
import ControlPlane.Proofs.Client.Exclusion

/-!
# Calls of a handle that overlap

A submission freezes the bundle before it deploys, and opens it again when the deployment is refused.
A destruction freezes and empties the bundle before it asks for the lock.  None of this happens under the
lock that orders the calls to the cluster, and so calls that overlap meet at the bundle.

* `Addition` — what may be added to a bundle.
* `Stage`, `Desk`, `Deed` — a handle with its bundle and all calls on it, cut at their waits, and what may
  happen next.
* `Handle.submit_alone`, `Handle.destroy_alone` — the calls of a handle are these deeds in a row.
-/

namespace ControlPlane

open Job (State Event)

/-! ## Additions -/

/-- Something to be added to a bundle, and where it is found. -/
inductive Addition where
  | code (loader : CodeLoader) (files : FileTree) (identifiers : List String)
  | codeBytes (identifier : String) (bytes : List UInt8)
  | located (files : FileTree) (locator : String) (name : Option String) (kind : ResourceKind)

namespace Addition

/-- The bundle with the addition, and how many of its resources are new. -/
def addTo (b : Bundle) : Addition → Except BundleError (ℕ × Bundle)
  | code loader files identifiers => b.addCode loader files identifiers
  | codeBytes identifier bytes =>
    (b.addCodeBytes identifier bytes).map fun (new, b) => (new.toNat, b)
  | located files locator name kind =>
    (b.addLocated files locator name kind).map fun (new, b) => (new.toNat, b)

/-- **To a frozen bundle** nothing is added. -/
lemma addTo_frozen {b : Bundle} (frozen : b.frozen = true) (a : Addition) :
    a.addTo b = .error .frozen := by
  cases a <;> simp [addTo, Bundle.addCode, Bundle.addCodeBytes, Bundle.addLocated, frozen, Except.map,
    bind, Except.bind, throw, throwThe, MonadExceptOf.throw]

end Addition

/-! ## Calls that overlap -/

/-- **How far a call** of `submit` or of `destroy` has come. -/
inductive Stage where
  /-- The deployment would be legal. -/
  | checked (graph : Graph)
  /-- The bundle has been frozen, and its resources are at hand. -/
  | staged (graph : Graph) (resources : List Resource)
  /-- The deployment is the operation with number `n`. -/
  | deploying (graph : Graph) (n : ℕ)
  /-- The bundle has been frozen and emptied for the end of the job. -/
  | clearing
  /-- The last operation of the call is the one with number `n`. -/
  | waiting (n : ℕ)
  | returned (result : Except JobError State)

/-- **A handle with its bundle** and all calls on it. -/
structure Desk where
  crowd : Crowd
  bundle : Bundle
  /-- The calls of `submit` and `destroy`, in their order. -/
  callers : List Stage

/-- What happens next. -/
inductive Deed where
  /-- A submission looks at the state. -/
  | submit (graph : Graph)
  /-- Call number `k` freezes the bundle and takes its resources. -/
  | freeze (k : ℕ)
  /-- Call number `k` hands its deployment over to the pool. -/
  | deploy (k : ℕ)
  /-- Call number `k` goes on when its operation has ended: a refused deployment opens the bundle, and
  after a deployment the graph is handed over. -/
  | resume (k : ℕ)
  /-- A destruction freezes and empties the bundle. -/
  | destroy
  /-- Call number `k` hands its destruction over to the pool. -/
  | release (k : ℕ)
  | add (a : Addition)
  /-- A step of the operations and watchers of the handle. -/
  | control (m : Move)

/-- The operations that do not come from a call of `submit` or of `destroy`. -/
def Intent.isPlain : Intent → Bool
  | init _ | execute | interrupt => true
  | deploy _ | submit _ | destroy => false

/-- The steps that do not belong to a call of `submit` or of `destroy`. -/
def Move.isPlain : Move → Bool
  | enter i => i.isPlain
  | _ => true

namespace Desk

/-- The desk of a new handle. -/
def new (job : String) : Desk := ⟨.new job, .empty, []⟩

def state (d : Desk) : State := d.crowd.control.state

/-- The handle as those see it who only look at its state and its bundle. -/
def handle (d : Desk) : Handle := ⟨d.crowd.control, d.bundle, none⟩

/-- The desk where an operation has been called; its number is that of all operations so far. -/
def undertake (d : Desk) (i : Intent) : Desk := { d with crowd := d.crowd.move (.enter i) }

/-- The number of the next operation. -/
def number (d : Desk) : ℕ := d.crowd.tasks.length

/-- What the operation with number `n` has ended with, if it has ended. -/
def result? (d : Desk) (n : ℕ) : Option (Except JobError State) :=
  match d.crowd.tasks[n]? with
  | some ⟨_, .finished result⟩ => some result
  | _ => none

/-- **One deed.**  A deed that nobody can do changes nothing. -/
def move (d : Desk) : Deed → Desk
  | .submit g =>
    if d.state = .deployed then
      { d.undertake (.submit g) with callers := d.callers ++ [.waiting d.number] }
    else match d.crowd.control.check .deploy with
      | .error e => { d with callers := d.callers ++ [.returned (.error e)] }
      | .ok _ => { d with callers := d.callers ++ [.checked g] }
  | .freeze k =>
    match d.callers[k]? with
    | some (.checked g) =>
      { d with bundle := d.bundle.freeze, callers := d.callers.set k (.staged g d.bundle.toList) }
    | _ => d
  | .deploy k =>
    match d.callers[k]? with
    | some (.staged g rs) =>
      { d.undertake (.deploy rs) with callers := d.callers.set k (.deploying g d.number) }
    | _ => d
  | .resume k =>
    match d.callers[k]? with
    | some (.deploying g n) =>
      match d.result? n with
      | some (.ok _) => { d.undertake (.submit g) with callers := d.callers.set k (.waiting d.number) }
      | some (.error e) =>
        { d with
          bundle := d.handle.reopen.bundle
          callers := d.callers.set k (.returned (.error e)) }
      | none => d
    | some (.waiting n) =>
      match d.result? n with
      | some result => { d with callers := d.callers.set k (.returned result) }
      | none => d
    | _ => d
  | .destroy => { d with bundle := d.bundle.freeze.clear, callers := d.callers ++ [.clearing] }
  | .release k =>
    match d.callers[k]? with
    | some .clearing => { d.undertake .destroy with callers := d.callers.set k (.waiting d.number) }
    | _ => d
  | .add a => { d with bundle := (d.handle.addTo a.addTo).2.bundle }
  | .control m => if m.isPlain then { d with crowd := d.crowd.move m } else d

/-- **Deeds one after the other**, in any order. -/
def run (d : Desk) (deeds : List Deed) : Desk := deeds.foldl move d

lemma run_cons (d : Desk) (m : Deed) (deeds : List Deed) :
    d.run (m :: deeds) = (d.move m).run deeds := rfl

lemma run_append (d : Desk) (first second : List Deed) :
    d.run (first ++ second) = (d.run first).run second :=
  List.foldl_append

end Desk

/-! ## Calls with nobody in between -/

/-- Whoever has been let in gets the lock, if it is free and nobody has taken a step. -/
lemma Control.acquire_of_enter {c : Control} {i : Intent} (entered : c.enter i = .queued)
    (free : c.locked = false) : c.acquire i = (.calling, { c with locked := true }) := by
  unfold enter at entered
  split at entered
  next => simp at entered
  next undone =>
    cases legal : c.check i.event with
    | error e => simp [legal] at entered
    | ok next => simp [acquire, free, undone, legal]

lemma Control.answer_locked (c : Control) (i : Intent) (a : Except ClusterError Unit) :
    (c.answer i a).2.locked = false := by
  cases a with
  | error e => rfl
  | ok =>
      simp only [answer]
      split <;> simp

/-- An operation that has been let in, with nobody in between. -/
lemma Crowd.alone_of_enter (s : Crowd) {i : Intent} (entered : s.control.enter i = .queued)
    (free : s.control.locked = false) (a : Except ClusterError Unit) :
    let t := (s.move (.enter i)).run [.acquire s.tasks.length, .answer s.tasks.length a]
    let answered := ({ s.control with locked := true } : Control).answer i a
    t.control = answered.2 ∧ t.tasks = s.tasks ++ [⟨i, .finished answered.1⟩] := by
  have called := Control.acquire_of_enter entered free
  cases a <;> simp [run, move, advance, entered, called]

namespace Handle

variable (h : Handle) (site : Site) (i : Intent)

lemma giveUp_control : h.giveUp.control = h.control := by
  unfold giveUp
  split <;> rfl

lemma giveUp_bundle : h.giveUp.bundle = h.bundle := by
  unfold giveUp
  split <;> rfl

lemma perform_bundle : (h.perform site i).2.1.bundle = h.bundle := by
  unfold perform
  split
  · rfl
  · split <;> try rfl
    simp only
    split_ifs
    · rfl
    · exact giveUp_bundle _

/-- An operation that has been let in and has got the lock ends as its answer says. -/
lemma perform_of_called {c : Control} (entered : h.control.enter i = .queued)
    (called : h.control.acquire i = (.calling, c)) :
    let answered := c.answer i ((site.ask h.job i.call).1.map fun _ => ())
    (h.perform site i).1 = answered.1 ∧ (h.perform site i).2.1.control = answered.2 := by
  unfold perform
  simp only [entered, called, true_and]
  split
  · rfl
  · exact giveUp_control _

/-- **An operation of a handle** is that of a crowd in which nobody else takes a step. -/
lemma perform_alone (free : h.control.locked = false) {s : Crowd} (same : s.control = h.control) :
    ∃ a, let t := (s.move (.enter i)).run [.acquire s.tasks.length, .answer s.tasks.length a]
      t.control = (h.perform site i).2.1.control ∧ t.control.locked = false
        ∧ t.tasks = s.tasks ++ [⟨i, .finished (h.perform site i).1⟩] := by
  refine ⟨(site.ask h.job i.call).1.map fun _ => (), ?_⟩
  rw [← same] at free
  cases entered : s.control.enter i with
  | calling => exact absurd entered Control.enter_ne_calling
  | finished result =>
      have ended : h.perform site i = (result, h, site) := by
        rw [perform, ← same, entered]
      simpa [Crowd.run, Crowd.move, entered, ended] using ⟨same, free⟩
  | queued =>
      obtain ⟨control, tasks⟩ :=
        s.alone_of_enter entered free ((site.ask h.job i.call).1.map fun _ => ())
      have called := Control.acquire_of_enter entered free
      rw [same] at entered called
      obtain ⟨result, after⟩ := h.perform_of_called site i entered called
      refine ⟨control.trans ?_, ?_, tasks.trans ?_⟩
      · rw [after, same]
      · rw [control]
        exact Control.answer_locked _ _ _
      · rw [result, same]

end Handle

namespace Desk

variable {d : Desk}

/-- The deeds by which the last operation of a call is carried out, if nobody gets in between. -/
lemma last_alone (h : Handle) (site : Site) (i : Intent) (free : h.control.locked = false)
    (same : d.crowd.control = h.control) (callers : List Stage) :
    ∃ deeds, let e := (⟨d.crowd.move (.enter i), d.bundle, callers ++ [.waiting d.number]⟩ : Desk).run deeds
      e.crowd.control = (h.perform site i).2.1.control ∧ e.bundle = d.bundle
        ∧ e.callers = callers ++ [.returned (h.perform site i).1] := by
  obtain ⟨a, control, -, tasks⟩ := h.perform_alone site i free same
  refine ⟨[.control (.acquire d.number), .control (.answer d.number a), .resume callers.length], ?_⟩
  set t := (d.crowd.move (.enter i)).run [.acquire d.crowd.tasks.length, .answer d.crowd.tasks.length a]
    with eq
  have ended : (⟨t, d.bundle, callers ++ [.waiting d.number]⟩ : Desk).result? d.number
      = some (h.perform site i).1 := by
    simp [result?, tasks, number]
  have last : (⟨t, d.bundle, callers ++ [.waiting d.number]⟩ : Desk).move (.resume callers.length)
      = ⟨t, d.bundle, callers ++ [.returned (h.perform site i).1]⟩ := by
    simp [move, ended]
  have run : (⟨d.crowd.move (.enter i), d.bundle, callers ++ [.waiting d.number]⟩ : Desk).run
      [.control (.acquire d.number), .control (.answer d.number a), .resume callers.length]
      = (⟨t, d.bundle, callers ++ [.waiting d.number]⟩ : Desk).move (.resume callers.length) := rfl
  rw [run, last]
  exact ⟨control, rfl, rfl⟩

end Desk

namespace Handle

variable (h : Handle) (site : Site) {d : Desk}

/-- **A destruction** is a call with nobody in between. -/
theorem destroy_alone (free : h.control.locked = false) (control : d.crowd.control = h.control)
    (bundle : d.bundle = h.bundle) :
    ∃ deeds, let e := d.run deeds
      e.crowd.control = (h.destroy site).2.1.control ∧ e.bundle = (h.destroy site).2.1.bundle
        ∧ e.callers = d.callers ++ [.returned (h.destroy site).1] := by
  obtain ⟨last, result⟩ := Desk.last_alone (d := ⟨d.crowd, d.bundle.freeze.clear, d.callers⟩)
    { h with bundle := h.bundle.freeze.clear } site .destroy free control d.callers
  refine ⟨.destroy :: .release d.callers.length :: last, ?_⟩
  have begins : d.run (.destroy :: .release d.callers.length :: last)
      = (⟨d.crowd.move (.enter .destroy), d.bundle.freeze.clear,
          d.callers ++ [.waiting d.number]⟩ : Desk).run last := by
    simp [Desk.run, Desk.move, Desk.undertake, Desk.number]
  rw [begins]
  rw [bundle] at result ⊢
  refine ⟨result.1, result.2.1.trans ?_, result.2.2⟩
  exact (perform_bundle { h with bundle := h.bundle.freeze.clear } site .destroy).symm

/-- The first part of a submission, up to the answer to its deployment. -/
lemma deployment_alone (graph : Graph) (free : h.control.locked = false)
    (control : d.crowd.control = h.control) (bundle : d.bundle = h.bundle)
    (undeployed : h.state ≠ .deployed) {next : State} (legal : h.control.check .deploy = .ok next) :
    let ended := { h with bundle := h.bundle.freeze }.perform site (.deploy h.bundle.toList)
    ∃ deeds t n, d.run deeds = ⟨t, h.bundle.freeze, d.callers ++ [.deploying graph n]⟩
      ∧ t.control = ended.2.1.control ∧ t.control.locked = false
      ∧ t.tasks[n]? = some ⟨.deploy h.bundle.toList, .finished ended.1⟩ := by
  intro ended
  obtain ⟨a, after, unlocked, tasks⟩ := perform_alone { h with bundle := h.bundle.freeze } site
    (.deploy h.bundle.toList) free control
  have same : d.state = h.state := congrArg Control.state control
  refine ⟨[.submit graph, .freeze d.callers.length, .deploy d.callers.length,
    .control (.acquire d.number), .control (.answer d.number a)], _, d.number, ?run, after, unlocked, ?ended⟩
  case run =>
    simp [Desk.run, Desk.move, Desk.undertake, Move.isPlain, same, undeployed, control, legal, bundle,
      Desk.number, Crowd.run]
  case ended => simp [tasks, Desk.number, ended]

lemma reopen_congr {h k : Handle} (control : h.control = k.control) (bundle : h.bundle = k.bundle) :
    h.reopen.control = k.control ∧ h.reopen.bundle = k.reopen.bundle := by
  unfold reopen state
  rw [control, bundle]
  split_ifs
  · exact ⟨rfl, rfl⟩
  · exact ⟨control, bundle⟩

/-- **A submission** is a call with nobody in between. -/
theorem submit_alone (graph : Graph) (free : h.control.locked = false)
    (control : d.crowd.control = h.control) (bundle : d.bundle = h.bundle) :
    ∃ deeds, let e := d.run deeds
      e.crowd.control = (h.submit site graph).2.1.control ∧ e.bundle = (h.submit site graph).2.1.bundle
        ∧ e.callers = d.callers ++ [.returned (h.submit site graph).1] := by
  have same : d.state = h.state := congrArg Control.state control
  unfold submit
  split_ifs with deployed
  · -- The graph alone is sent.
    obtain ⟨last, result⟩ := Desk.last_alone h site (.submit graph) free control d.callers
    refine ⟨.submit graph :: last, ?_⟩
    have begins : d.run (.submit graph :: last)
        = (⟨d.crowd.move (.enter (.submit graph)), d.bundle, d.callers ++ [.waiting d.number]⟩ :
          Desk).run last := by
      simp [Desk.run, Desk.move, Desk.undertake, same, deployed]
    rw [begins]
    exact ⟨result.1, result.2.1.trans (bundle.trans (h.perform_bundle site _).symm), result.2.2⟩
  · cases legal : h.control.check .deploy with
    | error e =>
        refine ⟨[.submit graph], ?_⟩
        simp [Desk.run, Desk.move, same, deployed, control, legal, bundle]
    | ok next =>
        obtain ⟨deeds, t, n, begins, after, unlocked, waits⟩ :=
          h.deployment_alone site graph free control bundle deployed legal
        have kept := perform_bundle { h with bundle := h.bundle.freeze } site (.deploy h.bundle.toList)
        simp only [deploy, show h.bundle.freeze.toList = h.bundle.toList from rfl]
        rcases performed : perform { h with bundle := h.bundle.freeze } site (.deploy h.bundle.toList)
          with ⟨result, h', site'⟩
        simp only [performed] at after waits kept ⊢
        have found : (d.run deeds).result? n = some result := by
          rw [begins]
          simp [Desk.result?, waits]
        have stage : (d.run deeds).callers[d.callers.length]? = some (.deploying graph n) := by
          rw [begins]
          simp
        cases result with
        | error e =>
            -- A refused deployment opens the bundle on both sides.
            obtain ⟨control', bundle'⟩ := reopen_congr (h := h') (k := (d.run deeds).handle)
              (by rw [begins]; exact after.symm) (by rw [begins]; exact kept)
            have resumed : (d.run deeds).move (.resume d.callers.length)
                = ⟨(d.run deeds).crowd, (d.run deeds).handle.reopen.bundle,
                  d.callers ++ [.returned (.error e)]⟩ := by
              simp only [Desk.move, stage, found]
              simp [begins]
            refine ⟨deeds ++ [.resume d.callers.length], ?_⟩
            rw [Desk.run_append, Desk.run_cons, resumed]
            exact ⟨control'.symm, bundle'.symm, rfl⟩
        | ok next =>
            obtain ⟨last, finished⟩ := Desk.last_alone (d := d.run deeds) h' site' (.submit graph)
              (by rw [← after]; exact unlocked) (by rw [begins]; exact after) d.callers
            have resumed : (d.run deeds).move (.resume d.callers.length)
                = ⟨(d.run deeds).crowd.move (.enter (.submit graph)), (d.run deeds).bundle,
                  d.callers ++ [.waiting (d.run deeds).number]⟩ := by
              simp only [Desk.move, stage, found, Desk.undertake]
              simp [begins]
            refine ⟨deeds ++ .resume d.callers.length :: last, ?_⟩
            rw [Desk.run_append, Desk.run_cons, resumed]
            refine ⟨finished.1, finished.2.1.trans ?_, finished.2.2⟩
            rw [begins]
            exact kept.symm.trans (h'.perform_bundle site' (.submit graph)).symm

end Handle

end ControlPlane
