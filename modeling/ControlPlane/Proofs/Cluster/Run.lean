import Mathlib
import ControlPlane.Proofs.Cluster.Plan
import ControlPlane.Proofs.Registry.Row

/-!
# Runs of a cluster

A cluster goes on by *ticks*: a client's call is carried out, a task takes one of its two last steps, a
gate opens, somebody writes to the counters of an execution.  A task that has resolved waits for the lock
of the run slots before it publishes, and meanwhile other threads go on; so its two steps are two ticks,
and anything may happen between them.  The process may also end in the middle of a tick, and another
cluster is made over the same store.

* `Request`, `Tick`, `Turn` — what may happen next.
* `Cluster.react`, `Cluster.play` — one tick, and ticks one after the other.
* `World` — a cluster with the history of all steps that have been taken, each together with the
  cluster that it was taken in.  A step is an action that changes something: a transaction of the
  store that writes, a call of the executor, or a change to a run slot.
* `World.turn`, `World.run` — one turn, and turns one after the other from an empty store.
-/

namespace ControlPlane

/-! ## Turns -/

/-- The settings that a call carries fit their words. -/
def Call.Fits : Call → Prop
  | .register config => config.Fits
  | _ => True

/-- A call of a client, and the time at which the cluster carries it out. -/
structure Request where
  job : String
  call : Call
  now : UInt64
  fits : call.Fits

/-- **What happens next** to a cluster. -/
inductive Tick where
  /-- A client's call is carried out. -/
  | call (q : Request)
  /-- A task is carried on, and resolves if nothing is left to do. -/
  | resolve (execution : ℕ)
  /-- A task that has resolved publishes. -/
  | publish (execution : ℕ) (now : UInt64)
  /-- Somebody who has kept the sink of an execution writes to it. -/
  | write (execution : ℕ) (w : SinkWrite)
  /-- What the latest execution of a job has waited for has come. -/
  | openGate (job : String)
  /-- From now on the executor answers differently. -/
  | exchange (executor : Executor)
  /-- Another cluster over the same store. -/
  | restart

/-- **A tick, or its beginning**: the process may end after `n` steps of it. -/
inductive Turn where
  | tick (t : Tick)
  | cut (t : Tick) (n : ℕ)

/-- The tick destroys a job. -/
def Tick.Destroys (job : String) : Tick → Prop
  | .call q => q.job = job ∧ q.call = .destroy
  | _ => False

/-- A job is destroyed by a call, also by one that is cut when the job is no longer stored. -/
def Turn.Destroys (job : String) : Turn → Prop
  | .tick t => t.Destroys job
  | .cut t n => t.Destroys job ∧ 2 ≤ n

/-- The steps of a client's call. -/
def Request.actions (q : Request) (c : Cluster) : List Action :=
  q.call.actions c q.job q.now.toNat

namespace Cluster

/-- The cluster in which a task has gone as far as it can before it publishes. -/
def resolved (c : Cluster) (execution : ℕ) : Cluster :=
  match c.findTask execution with
  | some t => c.resolveTask t
  | none => c

/-- The steps by which a resolved execution publishes. -/
def publication (c : Cluster) (execution now : ℕ) : List Action :=
  match c.findTask execution with
  | some t =>
    match t.phase with
    | .resolved result => (Program.plan c (Operation.publish t.job result now)).2
    | .working _ => []
  | none => []

/-- **One tick.** -/
def react (c : Cluster) : Tick → Cluster
  | .call q => (c.issue q.now.toNat q.job q.call).2
  | .resolve execution => c.resolved execution
  | .publish execution now =>
    match c.findTask execution with
    | some t => c.publishTask t now.toNat
    | none => c
  | .write execution w => c.writeSink execution w
  | .openGate job => (c.openGate job).2
  | .exchange executor => { c with executor := executor }
  | .restart => c.restart

/-- **Ticks one after the other.** -/
def play (c : Cluster) (ticks : List Tick) : Cluster := ticks.foldl react c

lemma play_cons (c : Cluster) (tick : Tick) (ticks : List Tick) :
    c.play (tick :: ticks) = (c.react tick).play ticks := rfl

lemma play_concat (c : Cluster) (ticks : List Tick) (tick : Tick) :
    c.play (ticks ++ [tick]) = (c.play ticks).react tick := by
  simp [play]

lemma play_append (c : Cluster) (first second : List Tick) :
    c.play (first ++ second) = (c.play first).play second :=
  List.foldl_append

lemma react_call (c : Cluster) (q : Request) : c.react (.call q) = c.after (q.actions c) :=
  c.issue_eq q.now.toNat q.job q.call

lemma react_exchange (c : Cluster) (executor : Executor) :
    c.react (.exchange executor) = { c with executor := executor } := rfl

lemma react_publish {c : Cluster} {execution : ℕ} {t : RunTask}
    (found : c.findTask execution = some t) (now : UInt64) :
    c.react (.publish execution now) = c.publishTask t now.toNat := by
  simp only [react, found]

end Cluster

/-- The steps that a tick takes. -/
def Tick.actions (c : Cluster) : Tick → List Action
  | .call q => q.actions c
  | .publish execution now => c.publication execution now.toNat
  | _ => []

/-! ## Histories -/

/-- A step that was taken, with the cluster before it. -/
structure Step where
  before : Cluster
  action : Action

/-- The history of actions that are taken one after the other. -/
def Cluster.steps (c : Cluster) : List Action → List Step
  | [] => []
  | a :: rest => ⟨c, a⟩ :: (a.perform c).2.steps rest

/-- A cluster and the steps that have led to it. -/
structure World where
  past : List Step
  cluster : Cluster

namespace World

/-- The world in which actions have been taken. -/
def perform (w : World) (actions : List Action) : World :=
  ⟨w.past ++ w.cluster.steps actions, w.cluster.after actions⟩

/-- The world on another cluster; no step leads there. -/
def onCluster (w : World) (c : Cluster) : World := ⟨w.past, c⟩

/-- **One turn.** -/
def turn (w : World) : Turn → World
  | .tick t => ⟨w.past ++ w.cluster.steps (t.actions w.cluster), w.cluster.react t⟩
  | .cut t n =>
    let v := w.perform ((t.actions w.cluster).take n)
    v.onCluster v.cluster.restart

/-- **Turns one after the other.** -/
def run (w : World) (turns : List Turn) : World := turns.foldl turn w

/-- A cluster over an empty store. -/
def start (executor : Executor) : World := ⟨[], .ofStore .empty executor⟩

/-! ### Lemmas -/

@[simp] lemma run_nil (w : World) : w.run [] = w := rfl

@[simp] lemma run_cons (w : World) (t : Turn) (turns : List Turn) :
    w.run (t :: turns) = (w.turn t).run turns := rfl

lemma run_append (w : World) (first second : List Turn) :
    w.run (first ++ second) = (w.run first).run second :=
  List.foldl_append

@[simp] lemma perform_nil (w : World) : w.perform [] = w := by
  simp [perform, Cluster.steps]

lemma perform_cons (w : World) (a : Action) (actions : List Action) :
    w.perform (a :: actions) = (w.perform [a]).perform actions := by
  simp [perform, Cluster.steps]

lemma perform_append (w : World) (first second : List Action) :
    w.perform (first ++ second) = (w.perform first).perform second := by
  induction first generalizing w with
  | nil => rw [perform_nil, List.nil_append]
  | cons a rest ih => rw [List.cons_append, perform_cons, ih, ← perform_cons]

/-- **Each step of a list is allowed** in the world that the earlier ones lead to. -/
inductive Obeys (allowed : World → Action → Prop) : World → List Action → Prop where
  | nil {w : World} : Obeys allowed w []
  | cons {w : World} {a : Action} {rest : List Action} (first : allowed w a)
      (later : Obeys allowed (w.perform [a]) rest) : Obeys allowed w (a :: rest)

namespace Obeys

variable {allowed : World → Action → Prop} {w : World} {actions : List Action}

lemma take (h : Obeys allowed w actions) (n : ℕ) : Obeys allowed w (actions.take n) := by
  induction h generalizing n with
  | nil => simpa using .nil
  | cons first later ih =>
      cases n with
      | zero => exact .nil
      | succ n => exact .cons first (ih n)

/-- What one allowed step keeps, a list of allowed steps keeps. -/
lemma keeps {invariant : World → Prop}
    (step : ∀ {w a}, invariant w → allowed w a → invariant (w.perform [a]))
    (h : Obeys allowed w actions) (start : invariant w) : invariant (w.perform actions) := by
  induction h with
  | nil => simpa using start
  | cons first later ih =>
      rw [perform_cons]
      exact ih (step start first)

end Obeys

lemma turn_call (w : World) (q : Request) :
    w.turn (.tick (.call q)) = w.perform (q.actions w.cluster) := by
  rw [turn, perform, Cluster.react_call]
  rfl

/-- Turns that are ticks do to the cluster what the ticks do. -/
lemma run_ticks (w : World) (ticks : List Tick) :
    (w.run (ticks.map .tick)).cluster = w.cluster.play ticks := by
  induction ticks generalizing w with
  | nil => rfl
  | cons t rest ih => exact ih (w.turn (.tick t))

end World

/-! ## Tasks that are gone -/

namespace Cluster

/-- A cluster without the task of an execution that has resolved. -/
def retire (c : Cluster) (execution : ℕ) : Cluster :=
  match c.findTask execution with
  | some t =>
    match t.phase with
    | .resolved _ => { c with tasks := c.tasks.filter fun u => u.execution ≠ execution }
    | .working _ => c
  | none => c

lemma findTask_execution {c : Cluster} {execution : ℕ} {t : RunTask}
    (h : c.findTask execution = some t) : t.execution = execution := by
  simpa using List.find?_some h

end Cluster

end ControlPlane
