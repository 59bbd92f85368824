import Mathlib
import ControlPlane.Proofs.Cluster.Plan

/-!
# Two programs at once

Two programs on one cluster take their steps in any order that the lock allows.  An operation holds the
lock from its first step to its last; a destruction takes it for its first step only, and so the other
one may fall between two steps of the operation.

* `Program.advance` — a program after some of its steps; the rest leads to where the whole leads.
* `Race`, `Race.Step` — two programs, and one step of either of them.
* `Race.ends_iff` — what a race against two steps can come to: the first program ends before the second
  begins, or it is *overtaken*.
-/

namespace ControlPlane

namespace Program

variable {α β : Type}

/-- **A program after some of its steps**, with the cluster to which they lead. -/
def advance (c : Cluster) : ℕ → Program α → Program α × Cluster
  | 0, p => (p, c)
  | _ + 1, done a => (done a, c)
  | n + 1, act action next => advance (action.perform c).2 n (next (action.perform c).1)

@[simp] lemma advance_zero (c : Cluster) (p : Program α) : p.advance c 0 = (p, c) := by
  cases p <;> rfl

@[simp] lemma advance_done (c : Cluster) (n : ℕ) (a : α) : (done a).advance c n = (done a, c) := by
  cases n <;> rfl

/-- The rest of a program leads to where the program leads. -/
lemma run_advance (c : Cluster) (n : ℕ) (p : Program α) :
    (p.advance c n).1.run (p.advance c n).2 = p.run c := by
  induction n generalizing c p with
  | zero => rw [advance_zero]
  | succ n ih =>
      cases p with
      | done a => rfl
      | act action next => exact ih _ _

/-- After enough steps nothing is left. -/
lemma exists_advance (c : Cluster) (p : Program α) :
    ∃ n, p.advance c n = (done (p.run c).1, (p.run c).2) := by
  induction p generalizing c with
  | done a => exact ⟨0, rfl⟩
  | act action next ih =>
      obtain ⟨n, rest⟩ := ih (action.perform c).1 (action.perform c).2
      exact ⟨n + 1, rest⟩

lemma advance_succ (c : Cluster) (n : ℕ) (p : Program α) :
    p.advance c (n + 1) = ((p.advance c n).1).advance (p.advance c n).2 1 := by
  induction n generalizing c p with
  | zero => rw [advance_zero]
  | succ n ih =>
      cases p with
      | done a => simp
      | act action next => exact ih _ _

/-- Steps one after the other, whatever they answer. -/
def line (a : α) : List Action → Program α
  | [] => done a
  | step :: rest => act step fun _ => line a rest

lemma plan_line (c : Cluster) (a : α) {steps : List Action}
    (writes : ∀ s ∈ steps, s.isRead = false) : (line a steps).plan c = (a, steps) := by
  induction steps generalizing c with
  | nil => rfl
  | cons s rest ih =>
      rw [line, plan, ih _ fun o member => writes o (List.mem_cons_of_mem s member)]
      simp [writes s List.mem_cons_self]

lemma advance_line (c : Cluster) (a : α) (n : ℕ) (steps : List Action) :
    (line a steps).advance c n = (line a (steps.drop n), c.after (steps.take n)) := by
  induction n generalizing c steps with
  | zero => simp
  | succ n ih =>
      cases steps with
      | nil => simp [line]
      | cons s rest =>
          rw [line, advance, ih]
          rfl

end Program

/-! ## Races -/

/-- A step on the run slots, for which the lock is needed. -/
def Action.isLocked : Action → Bool
  | .removeSlot _ => true
  | _ => false

/-- **Two programs on one cluster.**  The first holds the lock from its first step to its last. -/
structure Race (α β : Type) where
  cluster : Cluster
  first : Program α
  /-- The first program has taken a step. -/
  begun : Bool
  second : Program β

namespace Race

variable {α β : Type}

/-- **One step of either program.**  The second takes no step that needs the lock between two steps of
the first. -/
inductive Step : Race α β → Race α β → Prop
  | first {c : Cluster} {a : Action} {next : a.Answer → Program α} {begun : Bool} {q : Program β} :
      Step ⟨c, .act a next, begun, q⟩ ⟨(a.perform c).2, next (a.perform c).1, true, q⟩
  | second {c : Cluster} {p : Program α} {begun : Bool} {a : Action} {next : a.Answer → Program β}
      (free : a.isLocked = true → begun = true → ∃ answer, p = .done answer) :
      Step ⟨c, p, begun, .act a next⟩ ⟨(a.perform c).2, p, begun, next (a.perform c).1⟩

/-- **What a race comes to**: both answers and the cluster. -/
def Ends (c : Cluster) (p : Program α) (q : Program β) (x : α × β × Cluster) : Prop :=
  ∃ begun, Relation.ReflTransGen Step ⟨c, p, false, q⟩ ⟨x.2.2, .done x.1, begun, .done x.2.1⟩

/-- The first program before the second. -/
def firstThenSecond (c : Cluster) (p : Program α) (q : Program β) : α × β × Cluster :=
  let (a, c) := p.run c
  let (b, c) := q.run c
  (a, b, c)

/-- The second program before the first. -/
def secondThenFirst (c : Cluster) (p : Program α) (q : Program β) : α × β × Cluster :=
  let (b, c) := q.run c
  let (a, c) := p.run c
  (a, b, c)

/-- **The second program overtakes the first**: it takes its first step before that one begins, and the
rest of its steps when that one has taken `n`. -/
def overtaken (c : Cluster) (p : Program α) (q : Program β) (n : ℕ) : α × β × Cluster :=
  let (q, c) := q.advance c 1
  let (p, c) := p.advance c n
  let (b, c) := q.run c
  let (a, c) := p.run c
  (a, b, c)


section Two

variable {c : Cluster} {p : Program α} {b : β} {r s : Action}

/-- A program of two steps. -/
abbrev two (b : β) (r s : Action) : Program β := .act r fun _ => .act s fun _ => .done b

/-- How far a race against two steps can have come; the second program may take its first step only
before the first program begins or after it has ended. -/
inductive Stage (c : Cluster) (p : Program α) (b : β) (r s : Action) : Race α β → Prop
  /-- The first program has taken `n` steps. -/
  | alone {n : ℕ} {p' : Program α} {d : Cluster} {begun : Bool} (first : p.advance c n = (p', d))
      (fresh : begun = false → n = 0) : Stage c p b r s ⟨d, p', begun, two b r s⟩
  | late {begun : Bool} : Stage c p b r s
      ⟨(r.perform (p.run c).2).2, .done (p.run c).1, begun, .act s fun _ => .done b⟩
  | later {begun : Bool} : Stage c p b r s
      ⟨(s.perform (r.perform (p.run c).2).2).2, .done (p.run c).1, begun, .done b⟩
  /-- The second program has taken its first step, and then the first one `n` steps. -/
  | between {n : ℕ} {p' : Program α} {d : Cluster} {begun : Bool}
      (first : p.advance (r.perform c).2 n = (p', d)) :
      Stage c p b r s ⟨d, p', begun, .act s fun _ => .done b⟩
  /-- Then the second program has taken its other step, and the first one `m` more. -/
  | past {n m : ℕ} {p' q : Program α} {d e : Cluster} {begun : Bool}
      (first : p.advance (r.perform c).2 n = (p', d))
      (rest : p'.advance (s.perform d).2 m = (q, e)) : Stage c p b r s ⟨e, q, begun, .done b⟩

/-- A step of what is left of a program is the next step of the program. -/
lemma advance_step {c d : Cluster} {n : ℕ} {a : Action} {next : a.Answer → Program α}
    (rest : p.advance c n = (.act a next, d)) :
    p.advance c (n + 1) = (next (a.perform d).1, (a.perform d).2) := by
  rw [Program.advance_succ, rest]
  rfl

/-- A program of which nothing is left has been run. -/
lemma run_of_advance {c d : Cluster} {n : ℕ} {a : α} (rest : p.advance c n = (.done a, d)) :
    p.run c = (a, d) := by
  rw [← Program.run_advance c n p, rest]
  rfl

lemma Stage.step {x y : Race α β} (locked : r.isLocked = true) (h : Stage c p b r s x)
    (step : Step x y) : Stage c p b r s y := by
  cases h with
  | @alone n p' d begun first fresh =>
      cases step with
      | first => exact .alone (advance_step first) (by simp)
      | second free =>
          cases begun with
          | false =>
              obtain rfl := fresh rfl
              obtain ⟨rfl, rfl⟩ : p = p' ∧ c = d := by simpa using first
              exact .between (Program.advance_zero _ p)
          | true =>
              obtain ⟨answer, rfl⟩ := free locked rfl
              have ran := run_of_advance first
              have stage : Stage c p b r s ⟨_, _, true, _⟩ := .late
              rwa [ran] at stage
  | late =>
      cases step with
      | second free => exact .later
  | later => cases step
  | between first =>
      cases step with
      | first => exact .between (advance_step first)
      | second free => exact .past first (Program.advance_zero _ _)
  | past first rest =>
      cases step with
      | first => exact .past first (advance_step rest)

lemma Stage.steps {x y : Race α β} (locked : r.isLocked = true) (h : Stage c p b r s x)
    (steps : Relation.ReflTransGen Step x y) : Stage c p b r s y := by
  induction steps with
  | refl => exact h
  | tail _ step ih => exact ih.step locked step

/-- The first program may go on by itself at any time. -/
lemma steps_first (c : Cluster) (n : ℕ) (p : Program α) (begun : Bool) (q : Program β) :
    ∃ begun', Relation.ReflTransGen Step ⟨c, p, begun, q⟩
      ⟨(p.advance c n).2, (p.advance c n).1, begun', q⟩ := by
  induction n generalizing c p begun with
  | zero => exact ⟨begun, by rw [Program.advance_zero]⟩
  | succ n ih =>
      cases p with
      | done a => exact ⟨begun, .refl⟩
      | act a next =>
          obtain ⟨begun', rest⟩ := ih (a.perform c).2 (next (a.perform c).1) true
          exact ⟨begun', .head .first rest⟩

/-- **What a race against two steps can come to**, of which only the first needs the lock: either the
two steps are taken when all is over, or the first program is overtaken. -/
theorem ends_iff (locked : r.isLocked = true) (free : s.isLocked = false)
    {x : α × β × Cluster} :
    Ends c p (two b r s) x
      ↔ x = firstThenSecond c p (two b r s) ∨ ∃ n, x = overtaken c p (two b r s) n := by
  constructor
  · rintro ⟨begun, steps⟩
    obtain ⟨a, b', d⟩ := x
    have stage := Stage.steps locked (.alone (Program.advance_zero c p) fun _ => rfl) steps
    cases stage with
    | later => exact .inl rfl
    | @past n m p' q e _ _ first rest =>
        refine .inr ⟨n, ?_⟩
        have ran := run_of_advance rest
        simp only [overtaken, Program.advance, Program.run, first, ran]
  · rintro (rfl | ⟨n, rfl⟩)
    · obtain ⟨n, all⟩ := Program.exists_advance c p
      obtain ⟨begun, steps⟩ := steps_first c n p false (two b r s)
      rw [all] at steps
      refine ⟨begun, steps.trans (.head (.second fun _ _ => ⟨_, rfl⟩) (.single (.second ?_)))⟩
      exact fun _ _ => ⟨_, rfl⟩
    · obtain ⟨begun, steps⟩ := steps_first (r.perform c).2 n p false (.act s fun _ => .done b)
      set rest := (p.advance (r.perform c).2 n).1
      set d := (p.advance (r.perform c).2 n).2
      obtain ⟨m, all⟩ := Program.exists_advance (s.perform d).2 rest
      obtain ⟨begun', more⟩ := steps_first (s.perform d).2 m rest begun (.done b : Program β)
      rw [all] at more
      exact ⟨begun', .head (.second (by simp))
        (steps.trans (.head (.second (by simp [free])) more))⟩

end Two
end Race
end ControlPlane
