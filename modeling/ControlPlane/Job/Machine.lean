import ControlPlane.Job.State

/-!
# The state machine of a handle

The state of a job sits in one atomic cell.  A caller that wants to apply an event loads the cell,
looks the event up in the table, and exchanges the cell if it still holds what was loaded; if not,
it tries again with what it found.

* `Attempt`, `Attempt.step` — such a caller between two accesses, and its next access.
* `Machine.transition`, `Machine.ensure` — the same with nobody in between.
* `race` — several callers that all load before any of them exchanges.
-/

namespace ControlPlane.Job

/-- The event that was refused, and the state that refused it. -/
structure Illegal where
  state : State
  event : Event
  deriving DecidableEq, Repr

/-! ## One caller among others -/

/-- A caller of `transition` between two accesses to the cell. -/
inductive Attempt where
  /-- Nothing has been loaded. -/
  | fresh
  /-- The cell held this state when it was last looked at. -/
  | seen (state : State)
  /-- The call has returned. -/
  | returned (result : Except Illegal State)

/-- **The next step of a caller**: a load, or a look into the table and a compare-exchange. -/
def Attempt.step (event : Event) (cell : State) : Attempt → Attempt × State
  | .fresh => (.seen cell, cell)
  | .seen observed =>
    match observed.next? event with
    | none => (.returned (.error ⟨observed, event⟩), cell)
    | some next => if cell = observed then (.returned (.ok next), next) else (.seen cell, cell)
  | .returned result => (.returned result, cell)

/-- The result of a call, once it has returned. -/
def Attempt.result? : Attempt → Option (Except Illegal State)
  | .returned result => some result
  | _ => none

/-! ## A caller alone -/

/-- The machine of one job. -/
structure Machine where
  job : String
  state : State
  deriving DecidableEq, Repr

namespace Machine

/-- A machine in `unstarted`. -/
def new (job : String) : Machine := ⟨job, .unstarted⟩

/-- Whether an event is legal now, and where it would lead. -/
def ensure (m : Machine) (event : Event) : Except Illegal State :=
  match m.state.next? event with
  | some next => .ok next
  | none => .error ⟨m.state, event⟩

/-- **Applies an event**, or leaves the machine as it is. -/
def transition (m : Machine) (event : Event) : Except Illegal State × Machine :=
  match m.state.next? event with
  | some next => (.ok next, { m with state := next })
  | none => (.error ⟨m.state, event⟩, m)

/-- Applies events one after the other, as far as they are legal. -/
def advance (m : Machine) (events : List Event) : Machine :=
  events.foldl (fun m e => (m.transition e).2) m

end Machine

/-- A caller alone takes a load and an exchange, and does what `transition` says. -/
theorem step_step_fresh (m : Machine) (event : Event) :
    let (first, cell) := Attempt.step event m.state .fresh
    let (second, cell) := Attempt.step event cell first
    second = .returned (m.transition event).1 ∧ cell = (m.transition event).2.state := by
  simp only [Attempt.step, Machine.transition]
  cases h : m.state.next? event <;> simp

/-! ## Callers at once -/

/-- One step of every caller in turn. -/
def stepAll (event : Event) (cell : State) : List Attempt → List Attempt × State
  | [] => ([], cell)
  | a :: rest =>
    let (a, cell) := a.step event cell
    let (others, cell) := stepAll event cell rest
    (a :: others, cell)

/-- Turns of all callers, as many as are given. -/
def stepRounds (event : Event) : Nat → List Attempt × State → List Attempt × State
  | 0, s => s
  | n + 1, (attempts, cell) => stepRounds event n (stepAll event cell attempts)

/-- The number of turns after which every caller has returned: a caller that loses an exchange
finds the cell farther on its way, which is never longer than six states. -/
def enoughRounds : Nat := 8

/-- **A race**: `n` callers apply one event at once, all loading before the first exchange.
Answers their results and the machine afterwards. -/
def race (m : Machine) (event : Event) (n : Nat) : List (Except Illegal State) × Machine :=
  let (attempts, cell) := stepRounds event enoughRounds (List.replicate n .fresh, m.state)
  (attempts.filterMap Attempt.result?, { m with state := cell })

end ControlPlane.Job
