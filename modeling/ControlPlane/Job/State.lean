import ControlPlane.Json.Decoder

/-!
# The life of a job

A job moves through its states by events, along a fixed table.  The way is a line up to `running`,
ends in one of three outcomes, and can be left at any point for `destroyed`, which is final.

* `State`, `Event` — the states and events, with their names.
* `State.next?` — the table as a function.
* `Moves` — the table as a relation, one rule to a row; `next?_eq_some_iff` says that they agree.
-/

namespace ControlPlane.Job

/-- The phase of a job as its handle sees it. -/
inductive State where
  /-- Nothing has been sent to the cluster yet. -/
  | unstarted
  /-- The configuration is bound and the job registered. -/
  | initialized
  /-- The resources have been shipped. -/
  | deployed
  /-- The cluster has accepted the graph. -/
  | submitted
  /-- The execution has started. -/
  | running
  /-- The execution ended well. -/
  | completed
  /-- The execution ended with an error. -/
  | failed
  /-- The execution was stopped on request. -/
  | interrupted
  /-- All state of the job has been released. -/
  | destroyed
  deriving DecidableEq, Repr, Inhabited

/-- What moves a job from one state to the next. -/
inductive Event where
  | init
  | deploy
  | submit
  | execute
  | complete
  | fail
  | interrupt
  | destroy
  deriving DecidableEq, Repr, Inhabited

/-! ## Names and numbers -/

/-- The name of a state in stored and transmitted texts. -/
def State.name : State → String
  | .unstarted => "unstarted"
  | .initialized => "initialized"
  | .deployed => "deployed"
  | .submitted => "submitted"
  | .running => "running"
  | .completed => "completed"
  | .failed => "failed"
  | .interrupted => "interrupted"
  | .destroyed => "destroyed"

/-- The name of a state in messages. -/
def State.label : State → String
  | .unstarted => "UNSTARTED"
  | .initialized => "INITIALIZED"
  | .deployed => "DEPLOYED"
  | .submitted => "SUBMITTED"
  | .running => "RUNNING"
  | .completed => "COMPLETED"
  | .failed => "FAILED"
  | .interrupted => "INTERRUPTED"
  | .destroyed => "DESTROYED"

/-- The name of a state in the description of a handle. -/
def State.title : State → String
  | .unstarted => "Unstarted"
  | .initialized => "Initialized"
  | .deployed => "Deployed"
  | .submitted => "Submitted"
  | .running => "Running"
  | .completed => "Completed"
  | .failed => "Failed"
  | .interrupted => "Interrupted"
  | .destroyed => "Destroyed"

/-- The states, in the order of their codes. -/
def State.all : List State :=
  [.unstarted, .initialized, .deployed, .submitted, .running, .completed, .failed, .interrupted,
    .destroyed]

/-- The number of a state. -/
def State.code : State → Nat
  | .unstarted => 0
  | .initialized => 1
  | .deployed => 2
  | .submitted => 3
  | .running => 4
  | .completed => 5
  | .failed => 6
  | .interrupted => 7
  | .destroyed => 8

/-- The name of an event. -/
def Event.name : Event → String
  | .init => "init"
  | .deploy => "deploy"
  | .submit => "submit"
  | .execute => "execute"
  | .complete => "complete"
  | .fail => "fail"
  | .interrupt => "interrupt"
  | .destroy => "destroy"

/-- The events, in the order of the way. -/
def Event.all : List Event :=
  [.init, .deploy, .submit, .execute, .complete, .fail, .interrupt, .destroy]

/-- Whether the execution has begun, ended or not. -/
def State.hasStarted : State → Bool
  | .running | .completed | .failed | .interrupted => true
  | _ => false

/-- Whether the execution has reached its outcome. -/
def State.isFinished : State → Bool
  | .completed | .failed | .interrupted => true
  | _ => false

/-! ## The table -/

/-- **The table**: where an event leads from a state, if anywhere. -/
def State.next? : State → Event → Option State
  | .destroyed, _ => none
  | _, .destroy => some .destroyed
  | .unstarted, .init => some .initialized
  | .initialized, .deploy => some .deployed
  | .deployed, .submit => some .submitted
  | .submitted, .execute => some .running
  | .running, .complete => some .completed
  | .running, .fail => some .failed
  | .running, .interrupt => some .interrupted
  | _, _ => none

/-- The same table as rules. -/
inductive Moves : State → Event → State → Prop where
  | init : Moves .unstarted .init .initialized
  | deploy : Moves .initialized .deploy .deployed
  | submit : Moves .deployed .submit .submitted
  | execute : Moves .submitted .execute .running
  | complete : Moves .running .complete .completed
  | fail : Moves .running .fail .failed
  | interrupt : Moves .running .interrupt .interrupted
  | destroy {s : State} : s ≠ .destroyed → Moves s .destroy .destroyed

/-- **The function and the rules agree.** -/
theorem next?_eq_some_iff {s t : State} {e : Event} : s.next? e = some t ↔ Moves s e t := by
  constructor
  · intro h
    cases s <;> cases e <;> simp only [State.next?, Option.some.injEq, reduceCtorEq] at h
      <;> subst h <;> constructor <;> simp
  · intro h
    cases h with
    | destroy ne => cases s <;> simp_all [State.next?]
    | _ => rfl

/-! ## Texts -/

/-- Reads the name of a state. -/
def State.decoder : Json.Decoder State := .choice (State.all.map fun s => (s.name, s))

/-- Reads the name of an event. -/
def Event.decoder : Json.Decoder Event := .choice (Event.all.map fun e => (e.name, e))

end ControlPlane.Job
