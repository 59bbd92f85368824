import Mathlib
import ControlPlane.Proofs.Cluster.Advances
import ControlPlane.Proofs.Cluster.Opening
import ControlPlane.Proofs.Registry.Resources

/-!
# A destruction that overlaps with a call

To destroy a job is to remove its slot, under the lock, and then to purge its rows, without the lock.  So
a call by which the job advances may begin and end between the two, or the purge may come while the call is
on its way.

* `Race.Serial`, `Race.left` — the ends that come without any overlap, and what the overtaken call has
  still to write after the purge.
* `Cluster.Bare` — a record of which neither resources nor a graph are left.
* `World.destruction_overlaps` — what an overlap comes to, for every call, every state and every moment.
-/

namespace ControlPlane

/-! ## Ends of a race -/

namespace Race

variable {α β : Type} (c : Cluster) (p : Program α) (q : Program β)

/-- **One of the two programs came after the other.** -/
def Serial (x : α × β × Cluster) : Prop := x = firstThenSecond c p q ∨ x = secondThenFirst c p q

/-- The first program when the second ends, and the cluster then. -/
def reached (n : ℕ) : Program α × Cluster :=
  let (p', d) := p.advance (q.advance c 1).2 n
  (p', ((q.advance c 1).1.run d).2)

/-- What the first program has still to change when the second has overtaken it. -/
def left (n : ℕ) : List Action := ((reached c p q n).1.plan (reached c p q n).2).2

/-- The first program has launched an execution before the second ends. -/
def Launched (n : ℕ) : Prop := (reached c p q n).2.nextExecution ≠ c.nextExecution

lemma overtaken_eq (n : ℕ) : overtaken c p q n
    = (((reached c p q n).1.plan (reached c p q n).2).1,
      ((q.advance c 1).1.run (p.advance (q.advance c 1).2 n).2).1,
      (reached c p q n).2.after (left c p q n)) := by
  simp only [overtaken, reached, left, Program.run_eq_plan]

/-- The second program overtakes one that has not begun: it comes first. -/
lemma overtaken_zero : overtaken c p q 0 = secondThenFirst c p q := by
  simp only [overtaken, secondThenFirst, Program.advance_zero, Program.run_advance]

/-- Programs without steps come to their answers. -/
lemma ends_done {a : α} {b : β} {x : α × β × Cluster} :
    Ends c (.done a) (.done b) x ↔ x = (a, b, c) := by
  constructor
  · rintro ⟨begun, steps⟩
    obtain ⟨a', b', d⟩ := x
    rcases Relation.ReflTransGen.cases_head steps with same | ⟨y, step, -⟩
    · simp only [Race.mk.injEq, Program.done.injEq] at same
      obtain ⟨rfl, rfl, -, rfl⟩ := same
      rfl
    · cases step
  · rintro rfl
    exact ⟨false, .refl⟩

end Race

/-! ## What is there of a job -/

namespace Cluster

variable {c : Cluster} {job : String}

/-- There is a record of the job, or a slot. -/
def Shows (c : Cluster) (job : String) : Prop :=
  c.store.jobs.find? job ≠ none ∨ c.slots.find? job ≠ none

/-- **A bare record**: neither resources nor a graph of the job are stored. -/
structure Bare (c : Cluster) (job : String) (r : Record) : Prop where
  record : c.Stores job r
  resources : c.store.listResources job = .ok []
  graph : c.store.getGraph job = .ok none

/-- The second step of a destruction. -/
def purge (c : Cluster) (job : String) : Cluster := ((Action.purge job).perform c).2

@[simp] lemma purge_nextExecution (c : Cluster) (job : String) :
    (c.purge job).nextExecution = c.nextExecution := rfl

lemma lacks_purge (c : Cluster) (job : String) : (c.purge job).Lacks job :=
  (c.store.getJob_purge job job).trans (if_pos rfl)

/-- After its destruction nothing is there of a job. -/
lemma not_shows_destroyed (c : Cluster) (job : String) : ¬((c.removeSlot job).purge job).Shows job := by
  simp [Shows, purge, Action.perform, Store.purge]

lemma shows_of_marks {last : Action} (marks : last.Marks job) (c : Cluster) (steps : List Action) :
    (c.after (steps ++ [last])).Shows job := by
  rw [after_append, after_cons, after_nil]
  cases last
  case putJob r => exact .inl (by simp [Action.perform, Store.putJob, show r.name = job from marks.name])
  case launch context => exact .inr (by simp [Action.perform, show context.job = job from marks])
  all_goals exact marks.elim

/-! ### Steps that leave the slots alone -/

lemma removeSlot_withStore (c : Cluster) (job : String) (s : Store) :
    ({ c with store := s } : Cluster).removeSlot job = { c.removeSlot job with store := s } := by
  unfold removeSlot
  cases c.slots.find? job <;> rfl

lemma removeSlot_after {steps : List Action} (puts : ∀ s ∈ steps, s.Puts job) (c : Cluster) :
    (c.removeSlot job).after steps = (c.after steps).removeSlot job := by
  induction steps generalizing c with
  | nil => rfl
  | cons s rest ih =>
      have one : (s.perform (c.removeSlot job)).2 = (s.perform c).2.removeSlot job := by
        have written := puts s List.mem_cons_self
        cases s
        case putJob | putResources | putGraph =>
          simp only [Action.perform, removeSlot_withStore, removeSlot_store]
        all_goals exact written.elim
      rw [after_cons, after_cons, one, ih fun o member => puts o (List.mem_cons_of_mem s member)]

lemma nextExecution_after_puts {steps : List Action} (puts : ∀ s ∈ steps, s.Puts job) (c : Cluster) :
    (c.after steps).nextExecution = c.nextExecution := by
  induction steps generalizing c with
  | nil => rfl
  | cons s rest ih =>
      have written := puts s List.mem_cons_self
      rw [after_cons, ih fun o member => puts o (List.mem_cons_of_mem s member),
        Action.perform_nextExecution]
      cases s
      case launch => exact written.elim
      all_goals rfl

end Cluster

/-! ## A destruction and a call -/

namespace Race

/-- The program of a destruction. -/
abbrev destruction (job : String) : Program Answer := two (.ok .done) (.removeSlot job) (.purge job)

lemma program_destroy {job : String} (valid : Job.isName job = true) (now : ℕ) :
    Call.destroy.program job now = destruction job := by
  simp only [Call.program, Call.operation, Operation.destroy, Operation.checkName, valid, if_true]
  rfl

variable {c : Cluster} {job : String} {p : Program Answer} {n : ℕ}

lemma reached_destruction :
    reached c p (destruction job) n
      = ((p.advance (c.removeSlot job) n).1, (p.advance (c.removeSlot job) n).2.purge job) := rfl

lemma overtaken_destruction :
    overtaken c p (destruction job) n
      = (((reached c p (destruction job) n).1.plan (reached c p (destruction job) n).2).1, .ok .done,
        (reached c p (destruction job) n).2.after (left c p (destruction job) n)) :=
  overtaken_eq ..

lemma firstThenSecond_destruction :
    firstThenSecond c p (destruction job)
      = ((p.plan c).1, .ok .done, ((c.after (p.plan c).2).removeSlot job).purge job) := by
  simp only [firstThenSecond, Program.run_eq_plan c p]
  rfl

/-- If the call has come first, nothing is there of the job. -/
lemma not_shows_first : ¬(firstThenSecond c p (destruction job)).2.2.Shows job := by
  rw [firstThenSecond_destruction]
  exact Cluster.not_shows_destroyed _ job

/-- **An overtaken call has come first** exactly when it has nothing left to write, has not launched an
execution, and answers as it would have done alone. -/
lemma overtaken_eq_first_iff {g : Program Answer} (goes : Call.Goes job g) (same : p.plan c = g.plan c)
    (way : Call.Halfway job (c.removeSlot job) g (p.advance (c.removeSlot job) n)) :
    overtaken c p (destruction job) n = firstThenSecond c p (destruction job)
      ↔ left c p (destruction job) n = [] ∧ ¬Launched c p (destruction job) n
        ∧ (overtaken c p (destruction job) n).1 = (p.run c).1 := by
  have not_first : ∀ {x : Answer × Answer × Cluster}, x.2.2.Shows job →
      x ≠ firstThenSecond c p (destruction job) := by
    rintro x shows rfl
    exact not_shows_first shows
  rw [overtaken_destruction, Program.run_eq_plan, Launched, left, reached_destruction]
  generalize p.advance (c.removeSlot job) n = x at way ⊢
  cases way with
  | @looking q rest =>
      have plans := rest.plans ((c.removeSlot job).purge job)
      generalize q.plan ((c.removeSlot job).purge job) = plan at plans ⊢
      cases plans with
      | refuses other =>
          rw [firstThenSecond_destruction]
          have alone := goes.plans c
          rw [← same] at alone
          generalize p.plan c = plan at alone ⊢
          cases alone with
          | refuses other' => simp [Cluster.purge, Action.perform]
          | writes puts marks => simp
      | writes puts marks =>
          refine iff_of_false (not_first ?_) (by simp)
          exact Cluster.shows_of_marks marks _ _
  | @writing first rest last puts marks =>
      have later := fun s member => puts s (List.mem_append_right first member)
      rw [Call.plan_writes later marks]
      refine iff_of_false (not_first ?_) (by simp)
      exact Cluster.shows_of_marks marks _ _
  | @ended steps last puts marks all =>
      rw [goes.plan_congr (c.removeSlot_store job), ← same] at all
      cases last
      case putJob r =>
        have puts' : ∀ s ∈ steps ++ [.putJob r], s.Puts job := by
          intro s member
          rcases List.mem_append.mp member with first | final
          · exact puts s first
          · obtain rfl := List.mem_singleton.mp final
            exact marks
        rw [firstThenSecond_destruction, all, Cluster.removeSlot_after puts']
        simp [Cluster.purge, Action.perform, -Cluster.after_append,
          Cluster.nextExecution_after_puts puts']
      case launch context =>
        refine iff_of_false (not_first (.inr ?_)) ?_
        · simp [Cluster.purge, Action.perform, show context.job = job from marks]
        · simp [Cluster.purge, Action.perform, Cluster.launch, Cluster.nextExecution_after_puts puts]
      all_goals exact marks.elim


/-- It does not miss its record, whose first look has found it. -/
lemma overtaken_answer_ne {g : Program Answer}
    (way : Call.Halfway job (c.removeSlot job) g (p.advance (c.removeSlot job) n)) :
    (overtaken c p (destruction job) n).1 ≠ .error (.jobNotFound job) := by
  rw [overtaken_destruction, reached_destruction]
  generalize p.advance (c.removeSlot job) n = x at way ⊢
  cases way with
  | @looking q rest =>
      have plans := rest.plans ((c.removeSlot job).purge job)
      generalize q.plan ((c.removeSlot job).purge job) = plan at plans ⊢
      cases plans with
      | refuses other => simpa using other
      | writes puts marks => simp
  | @writing first rest last puts marks =>
      have later := fun s member => puts s (List.mem_append_right first member)
      rw [Call.plan_writes later marks]
      simp
  | ended puts marks all => simp

lemma secondThenFirst_destruction :
    secondThenFirst c p (destruction job)
      = ((p.plan ((c.removeSlot job).purge job)).1, .ok .done,
        ((c.removeSlot job).purge job).after (p.plan ((c.removeSlot job).purge job)).2) := by
  rw [← overtaken_zero, overtaken_destruction, left, reached_destruction, Program.advance_zero]

section Calls

variable {call : Call} {now : UInt64}

variable (now) in
/-- What a call of a job that is stored goes on with. -/
lemma exists_goes (advances : call.Advances) (fits : call.Fits) (valid : Job.isName job = true)
    {r : Record} (stored : c.Stores job r) (sound : r.Sound job) :
    ∃ g, Call.Goes job g ∧ (call.program job now.toNat).plan c = g.plan c
      ∧ ∀ n, (call.program job now.toNat).advance (c.removeSlot job) (n + 1)
        = g.advance (c.removeSlot job) n := by
  have begins := Call.begins advances fits valid now
  generalize call.program job now.toNat = p at begins ⊢
  cases begins with
  | @getJob next missing goes =>
      have found : ((Action.getJob job).perform c).1 = .ok (some r) := stored
      have found' : ((Action.getJob job).perform (c.removeSlot job)).1 = .ok (some r) :=
        (congrArg (fun s : Store => s.getJob job) (c.removeSlot_store job)).trans stored
      refine ⟨next (.ok (some r)), goes r sound, ?_, fun n => ?_⟩
      · rw [Program.plan, found]
        rfl
      · rw [Program.advance, found']
        rfl

/-- A call that comes second. -/
lemma plan_absent (advances : call.Advances) (fits : call.Fits) (valid : Job.isName job = true)
    {d : Cluster} (missing : d.Lacks job) :
    (call.program job now.toNat).plan d = (call.absent job now.toNat).plan d := by
  have begins := Call.begins advances fits valid now
  generalize call.program job now.toNat = p at begins ⊢
  cases begins with
  | getJob absent goes =>
      have looked : ((Action.getJob job).perform d).1 = .ok none := missing
      rw [Program.plan, looked, absent]
      rfl


/-- A job that is registered again as if for the first time is left by an overtaken call that has to write
just that. -/
lemma overtaken_eq_second_register {config : JobConfig} (fits : config.Fits)
    (valid : Job.isName job = true) {r : Record} (stored : c.Stores job r) (sound : r.Sound job) (n : ℕ) :
    overtaken c ((Call.register config).program job now.toNat) (destruction job) (n + 1)
        = secondThenFirst c ((Call.register config).program job now.toNat) (destruction job)
      ↔ left c ((Call.register config).program job now.toNat) (destruction job) (n + 1)
        = [.putJob (Record.new job config now.toNat)] := by
  set b := c.removeSlot job with removed
  set fresh := Record.new job config now.toNat
  set p := (Call.register config).program job now.toNat with program
  have second : secondThenFirst c p (destruction job)
      = (.ok .done, .ok .done, (b.purge job).after [.putJob fresh]) := by
    rw [secondThenFirst_destruction, plan_absent (show (Call.register config).Advances from trivial) fits valid
      (b.lacks_purge job)]
    rfl
  have new_sound : fresh.Sound job := .ofNew fits now
  have shows : ((b.purge job).after [.putJob fresh]).Shows job :=
    Cluster.shows_of_marks (show (Action.putJob fresh).Marks job from new_sound) (b.purge job) []
  have found : b.store.getJob job = .ok (some r) :=
    (congrArg (fun s : Store => s.getJob job) (c.removeSlot_store job)).trans stored
  rw [second, overtaken_destruction, left, reached_destruction, ← removed, program,
    Call.program_register valid, Program.advance]
  simp only [Action.perform, found]
  split_ifs
  · set again : Record := { r with config := config, updatedAt := now.toNat }
    have again_sound : again.Sound job := sound.configure fits now
    cases n with
    | zero =>
        rw [Program.advance_zero]
        constructor
        · intro same
          have record := congrArg (fun x : Answer × Answer × Cluster => x.2.2.store.getJob job) same
          have hits : again.name = job ∧ fresh.name = job := ⟨again_sound.name, new_sound.name⟩
          have : again = fresh := by
            simpa [Program.line, Program.plan, Action.isRead, Action.perform, Store.getJob_putJob,
              again_sound.fits, new_sound.fits, hits] using record
          rw [this]
          rfl
        · intro same
          have : again = fresh := by simpa [Program.line, Program.plan, Action.isRead] using same
          rw [this]
          rfl
    | succ n =>
        have puts : ∀ s ∈ [Action.putJob again], s.Puts job := by simpa [Action.Puts] using again_sound
        rw [Program.advance_line, List.drop_of_length_le (by simp), List.take_of_length_le (by simp),
          removed, Cluster.removeSlot_after puts]
        refine iff_of_false (fun same => ?_) (by simp [Program.line])
        have there := congrArg (fun x : Answer × Answer × Cluster => x.2.2.Shows job) same
        exact Cluster.not_shows_destroyed _ job (there.mpr shows)
  · simp


/-- What a call of a job that is not stored goes on with. -/
lemma advance_absent (advances : call.Advances) (fits : call.Fits) (valid : Job.isName job = true)
    {d : Cluster} (missing : d.Lacks job) (n : ℕ) :
    (call.program job now.toNat).advance d (n + 1) = (call.absent job now.toNat).advance d n := by
  have begins := Call.begins advances fits valid now
  generalize call.program job now.toNat = p at begins ⊢
  cases begins with
  | getJob absent goes =>
      have looked : ((Action.getJob job).perform d).1 = .ok none := missing
      rw [Program.advance, looked, absent]
      rfl

/-- **What an overtaken call leaves that comes to the same as one call after the other.** -/
def Harmless (c : Cluster) (job : String) (now : ℕ) (call : Call) (n : ℕ) : Prop :=
  let p := call.program job now
  let d := Call.destroy.program job now
  n = 0
    ∨ (left c p d n = [] ∧ ¬Launched c p d n ∧ (overtaken c p d n).1 = (p.run c).1)
    ∨ ∃ config, call = .register config ∧ left c p d n = [.putJob (Record.new job config now)]

variable (now) in
/-- A call of a job that is not stored does not mind. -/
lemma serial_of_lacks (advances : call.Advances) (fits : call.Fits) (valid : Job.isName job = true)
    (missing : c.Lacks job) (n : ℕ) :
    Serial c (call.program job now.toNat) (destruction job)
        (overtaken c (call.program job now.toNat) (destruction job) (n + 1))
      ∧ Harmless c job now.toNat call (n + 1) := by
  have missing' : (c.removeSlot job).Lacks job :=
    (congrArg (fun s : Store => s.getJob job) (c.removeSlot_store job)).trans missing
  have reached : reached c (call.program job now.toNat) (destruction job) (n + 1) = _ :=
    reached_destruction
  rw [advance_absent advances fits valid missing'] at reached
  simp only [Harmless, program_destroy valid]
  rw [Serial, overtaken_destruction, firstThenSecond_destruction,
    secondThenFirst_destruction, Launched, left, reached, Program.run_eq_plan,
    plan_absent advances fits valid missing,
    plan_absent advances fits valid ((c.removeSlot job).lacks_purge job)]
  cases call with
  | register config =>
      have sound : (Record.new job config now.toNat).Sound job := .ofNew fits now
      have puts : ∀ s ∈ [Action.putJob (Record.new job config now.toNat)], s.Puts job := by
        simpa [Action.Puts] using sound
      cases n with
      | zero => exact ⟨.inr rfl, .inr (.inr ⟨config, rfl, rfl⟩)⟩
      | succ n =>
          have next := c.nextExecution_after_puts puts
          rw [Call.absent, Program.advance_line, List.drop_of_length_le (by simp),
            List.take_of_length_le (by simp), Cluster.removeSlot_after puts]
          exact ⟨.inl rfl, .inr (.inl ⟨rfl, by simpa using next, rfl⟩)⟩
  | deploy | submit | start =>
      simp only [Call.absent, Program.advance_done]
      exact ⟨.inl rfl, .inr (.inl ⟨rfl, by simp, rfl⟩)⟩
  | await | interrupt | destroy | accumulators => exact advances.elim

/-- **An overtaken call comes to the same as one call after the other** just when it is harmless. -/
theorem serial_iff (advances : call.Advances) (fits : call.Fits) (valid : Job.isName job = true)
    (records : c.Sound) (n : ℕ) :
    Serial c (call.program job now.toNat) (destruction job)
        (overtaken c (call.program job now.toNat) (destruction job) n)
      ↔ Harmless c job now.toNat call n := by
  cases n with
  | zero => exact iff_of_true (.inr (overtaken_zero ..)) (.inl rfl)
  | succ n =>
      rcases records job with missing | ⟨r, stored, sound⟩
      · obtain ⟨serial, harmless⟩ := serial_of_lacks now advances fits valid missing n
        exact iff_of_true serial harmless
      · obtain ⟨g, goes, same, rest⟩ := exists_goes now advances fits valid stored sound
        have way := goes.halfway (c.removeSlot job) n
        rw [← rest] at way
        simp only [Harmless, program_destroy valid]
        rw [Serial, overtaken_eq_first_iff goes same way, or_iff_right (Nat.succ_ne_zero n)]
        refine or_congr_right ?_
        cases call with
        | register config =>
            rw [overtaken_eq_second_register fits valid stored sound]
            simp
        | deploy | submit | start =>
            refine iff_of_false (fun second => ?_) (by simp)
            refine overtaken_answer_ne way (second ▸ ?_)
            rw [secondThenFirst_destruction,
              plan_absent advances fits valid ((c.removeSlot job).lacks_purge job)]
            rfl
        | await | interrupt | destroy | accumulators => exact advances.elim


/-- The records that an overtaken call has still to write are sound. -/
lemma sound_of_left (advances : call.Advances) (fits : call.Fits) (valid : Job.isName job = true)
    (records : c.Sound) (n : ℕ) {r : Record}
    (writes : .putJob r ∈ left c (call.program job now.toNat) (destruction job) n) : r.Sound job := by
  have fresh := Call.absent_writes fits job now
  rw [left, reached_destruction] at writes
  cases n with
  | zero =>
      rw [Program.advance_zero, plan_absent advances fits valid (Cluster.lacks_purge _ job)] at writes
      exact fresh.plan _ writes
  | succ n =>
      rcases records job with missing | ⟨r', stored, sound⟩
      · have missing' : (c.removeSlot job).Lacks job :=
          (congrArg (fun s : Store => s.getJob job) (c.removeSlot_store job)).trans missing
        rw [advance_absent advances fits valid missing'] at writes
        exact (fresh.advance _ n).plan _ writes
      · obtain ⟨g, goes, -, rest⟩ := exists_goes now advances fits valid stored sound
        rw [rest] at writes
        exact (goes.allWrites.advance _ n).plan _ writes

/-- A record that an overtaken call writes when it has written all else is bare. -/
lemma bare_of_left {r : Record} (sound : r.Sound job)
    (writes : left c p (destruction job) n = [.putJob r]
      ∨ ∃ context, left c p (destruction job) n = [.putJob r, .launch context]) :
    (overtaken c p (destruction job) n).2.2.Bare job r := by
  rw [overtaken_destruction, reached_destruction]
  generalize (p.advance (c.removeSlot job) n).2 = d
  have put : (((Action.putJob r).perform (d.purge job)).2).Bare job r :=
    { record := (Store.getJob_putJob _ sound.fits job).trans (if_pos sound.name)
      resources := Store.listResources_purge d.store job
      graph := by simp [Action.perform, Cluster.purge, Store.putJob, Store.purge, Store.getGraph, Store.get] }
  rcases writes with all | ⟨context, all⟩
  · rw [all]
    exact put
  · rw [all]
    exact ⟨put.record, put.resources, put.graph⟩

end Calls
end Race

/-! ## The statement -/

/-- Names that are refused are refused at once. -/
lemma Call.program_of_not_isName {call : Call} (h : call.Advances ∨ call = .destroy) {job : String}
    (refused : ¬Job.isName job = true) (now : ℕ) :
    call.program job now = .done (.error (.invalidJobName job)) := by
  cases call
  case register | deploy | submit | start | destroy =>
    simp only [program, operation, Operation.register, Operation.deploy, Operation.submit, Operation.start,
      Operation.destroy, Operation.requireJob, Operation.checkName, refused, if_false, Bool.false_eq_true]
    rfl
  all_goals simp [Advances] at h

/-- A deployment of one resource that has yet to write the record. -/
lemma Call.advance_deploy {c : Cluster} {job : String} (valid : Job.isName job = true) {r : Record}
    (stored : c.Stores job r) (status : r.status = .registered) {x : Resource}
    (new : c.store.getResource job x.name = .ok none) (now : ℕ) :
    ((Call.deploy [x]).program job now).advance c 3
      = (.line (.ok .done) [.putJob (r.advance .deployed now)],
        ((Action.putResources job [x]).perform c).2) := by
  have looked : ((Action.getJob job).perform c).1 = .ok (some r) := stored
  have free : ((Action.getResource job x.name).perform c).1 = .ok none := new
  simp only [program, operation, Operation.deploy, Operation.requireJob, Operation.checkName, valid,
    if_true]
  show Program.advance c 3 (.act (.getJob job) _) = _
  rw [Program.advance, looked]
  show Program.advance c 2 (ExceptT.run ((if (r.status = .registered || r.status = .deployed) = true then do
      Operation.checkResources job [x]
      Operation.perform (.putResources job [x])
      Operation.perform (.putJob (r.advance .deployed now))
    else throw (Operation.wrongStatus r "deploy" "registered or deployed"))
    >>= fun _ => return .done : Operation Reply)) = _
  simp only [status, decide_true, Bool.true_or, if_true]
  show Program.advance c 2 (.act (.getResource job x.name) _) = _
  rw [Program.advance, free]
  rfl

namespace World

/-- **What comes of a destruction that overlaps with a call by which the job advances.**  Either the call
is over when the destruction begins, or the call is overtaken: the slot is removed before the call begins,
and the rows are purged after some of its steps.  The latter comes to the same as one of the two after the
other exactly when it is harmless: when the call has not begun; or when it has nothing to write any more,
has not launched an execution and answers as it would have done alone; or when it is left to write the
record of a job that is registered for the first time.  When the record is all that it still writes, that
record is bare. -/
theorem destruction_overlaps (executor : Executor) (turns : List Turn) (q : Request)
    (advances : q.call.Advances) :
    let c := ((World.start executor).run turns).cluster
    let p := q.call.program q.job q.now.toNat
    let d := Call.destroy.program q.job q.now.toNat
    (∀ x, Race.Ends c p d x ↔ x = Race.firstThenSecond c p d ∨ ∃ n, x = Race.overtaken c p d n)
      ∧ ∀ n x, x = Race.overtaken c p d n →
        (Race.Serial c p d x ↔ Race.Harmless c q.job q.now.toNat q.call n)
        ∧ ∀ r, (Race.left c p d n = [.putJob r]
            ∨ ∃ context, Race.left c p d n = [.putJob r, .launch context]) → x.2.2.Bare q.job r := by
  intro c p d
  have records : c.Sound := ((Orderly.start executor).run turns).lawful.sound
  by_cases valid : Job.isName q.job = true
  · have program : d = Race.destruction q.job := Race.program_destroy valid _
    rw [program]
    refine ⟨fun x => Race.ends_iff rfl rfl, fun n x overtaken => overtaken ▸ ⟨?_, fun r writes => ?_⟩⟩
    · exact Race.serial_iff advances q.fits valid records n
    · have member : .putJob r ∈ Race.left c p (Race.destruction q.job) n := by
        rcases writes with all | ⟨context, all⟩ <;> simp [all]
      exact Race.bare_of_left (Race.sound_of_left advances q.fits valid records n member) writes
  · set answer : Answer := .error (.invalidJobName q.job)
    have call : p = .done answer := Call.program_of_not_isName (.inl advances) valid _
    have destroy : d = .done answer := Call.program_of_not_isName (.inr rfl) valid _
    have end_eq : ∀ n, Race.overtaken c p d n = (answer, answer, c) := by
      intro n
      simp [call, destroy, Race.overtaken]
    have nothing : ∀ n, Race.left c p d n = [] := by
      intro n
      simp [call, destroy, Race.left, Race.reached]
    refine ⟨fun x => ?_, fun n x overtaken =>
      ⟨iff_of_true (.inl ?_) (.inr (.inl ⟨nothing n, ?_, ?_⟩)), ?_⟩⟩
    · simp only [end_eq, exists_const]
      rw [call, destroy, Race.ends_done]
      simp [Race.firstThenSecond]
    · rw [overtaken, end_eq]
      simp [call, destroy, Race.firstThenSecond]
    · show ¬Race.Launched c p d n
      simp [call, destroy, Race.Launched, Race.reached]
    · show (Race.overtaken c p d n).1 = (p.run c).1
      rw [end_eq]
      simp [call]
    · simp [nothing n]

/-- A deployment that is overtaken between its two writes: the job is deployed, and its resources are
purged. -/
theorem overtaken_deployment_is_bare :
    let register : Turn :=
      .tick (.call ⟨"a", .register Cluster.plainConfig, 0, Cluster.plainConfig_fits⟩)
    let lib : Resource := ⟨"lib", .code, .inline [0], ""⟩
    let q : Request := ⟨"a", .deploy [lib], 0, trivial⟩
    let c := ((World.start acknowledge).run [register]).cluster
    let p := q.call.program q.job q.now.toNat
    let d := Call.destroy.program q.job q.now.toNat
    let x := Race.overtaken c p d 3
    q.call.Advances ∧ Race.Ends c p d x ∧ ¬Race.Serial c p d x
      ∧ x.1 = .ok .done ∧ x.2.1 = .ok .done ∧ ∃ r, x.2.2.Bare "a" r ∧ r.status = .deployed := by
  intro register lib q c p d x
  obtain ⟨ends, overtaken⟩ := destruction_overlaps acknowledge [register] q trivial
  obtain ⟨serial, bare⟩ := overtaken 3 x rfl
  set r := Record.new "a" Cluster.plainConfig (0 : UInt64).toNat
  have stored : c.Stores "a" r :=
    (Store.getJob_putJob .empty (Record.Sound.ofNew Cluster.plainConfig_fits 0).fits "a").trans (if_pos rfl)
  set last : Action := .putJob (r.advance .deployed (0 : UInt64).toNat)
  have advanced : p.advance c 3
      = (.line (.ok .done) [last], ((Action.putResources "a" [lib]).perform c).2) :=
    Call.advance_deploy (by decide) stored rfl rfl _
  have program : d = Race.destruction "a" := Race.program_destroy (by decide) _
  have reached : Race.reached c p d 3
      = (.line (.ok .done) [last], (((Action.putResources "a" [lib]).perform c).2).purge "a") := by
    rw [program, Race.reached_destruction, show c.removeSlot "a" = c from rfl, advanced]
  have plan : ∀ e : Cluster, (Program.line (.ok .done : Answer) [last]).plan e = (.ok .done, [last]) :=
    fun e => rfl
  have left : Race.left c p d 3 = [last] := by rw [Race.left, reached, plan]
  obtain ⟨e, ended⟩ : ∃ e, x = (.ok .done, .ok .done, e) := by
    refine ⟨(Race.reached c p d 3).2.after (Race.left c p d 3), ?_⟩
    show Race.overtaken c p d 3 = _
    rw [program, Race.overtaken_destruction, ← program, reached, plan]
  refine ⟨trivial, (ends x).mpr (.inr ⟨3, rfl⟩), fun one => ?_, congrArg Prod.fst ended,
    congrArg (fun x => x.2.1) ended, _, bare _ (.inl left), rfl⟩
  rcases serial.mp one with zero | ⟨nothing, -⟩ | ⟨config, other, -⟩
  · cases zero
  · exact List.cons_ne_nil _ _ (left.symm.trans nothing)
  · cases other

end World
end ControlPlane
