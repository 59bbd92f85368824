import Mathlib
import ControlPlane.Proofs.Cluster.Progress
import ControlPlane.Proofs.Cluster.Race

/-!
# How a job advances, step by step

The calls by which a job advances until it runs go one way: they look for the record of the job, then they
look at the rest of the store, and then they write, the record last.  So what is left of such a call after
some of its steps is a call of the same kind, or nothing but writes.

* `Call.Goes`, `Call.begins` — the way that a call goes, and that every such call goes it.
* `Call.Plans`, `Goes.plans` — what it comes to.
* `Call.Halfway`, `Goes.halfway` — how far it can have come.
-/

namespace ControlPlane

namespace Action

/-- A step that looks into the store and not at the run slots. -/
def isLookup : Action → Bool
  | getJob _ | listJobs | getResource _ _ | listResources _ | getGraph _ | getAccumulators _ => true
  | _ => false

/-- A step that writes about a job into the store. -/
def Puts (job : String) : Action → Prop
  | putJob r => r.Sound job
  | putResources _ _ | putGraph _ _ => True
  | _ => False

/-- A step after which there is a record of a job, or an execution. -/
def Marks (job : String) : Action → Prop
  | putJob r => r.Sound job
  | launch context => context.job = job
  | _ => False

variable {a : Action} {job : String}

lemma isRead_of_isLookup (h : a.isLookup = true) : a.isRead = true := by
  cases a <;> first | rfl | simp [isLookup] at h

lemma perform_of_isLookup (h : a.isLookup = true) {c d : Cluster} (same : c.store = d.store) :
    (a.perform c).1 = (a.perform d).1 := by
  cases a <;> first | simp [isLookup] at h; done | simp only [perform, same]

lemma Puts.isRead (h : a.Puts job) : a.isRead = false := by
  cases a <;> first | rfl | exact h.elim

lemma Marks.isRead (h : a.Marks job) : a.isRead = false := by
  cases a <;> first | rfl | exact h.elim

end Action

/-- **Every record that a program may write** about a job is sound. -/
inductive Program.Writes {α : Type} (job : String) : Program α → Prop
  | done {a : α} : Writes job (.done a)
  | act {a : Action} {next : a.Answer → Program α} (sound : ∀ r, a = .putJob r → r.Sound job)
      (later : ∀ answer, Writes job (next answer)) : Writes job (.act a next)

namespace Program.Writes

variable {α : Type} {job : String} {p : Program α}

lemma plan (h : p.Writes job) (c : Cluster) {r : Record} (member : .putJob r ∈ (p.plan c).2) :
    r.Sound job := by
  induction h generalizing c with
  | done => simp at member
  | @act a next sound later ih =>
      rw [Program.plan] at member
      split_ifs at member
      · exact ih _ _ member
      · rcases List.mem_cons.mp member with first | rest
        · exact sound r first.symm
        · exact ih _ _ rest

lemma advance (h : p.Writes job) (c : Cluster) (n : ℕ) : (p.advance c n).1.Writes job := by
  induction h generalizing c n with
  | done =>
      rw [advance_done]
      exact .done
  | @act a next sound later ih =>
      cases n with
      | zero =>
          rw [advance_zero]
          exact .act sound later
      | succ n => exact ih _ _ n

lemma line (a : α) {steps : List Action} (all : ∀ r, .putJob r ∈ steps → r.Sound job) :
    (Program.line a steps).Writes job := by
  induction steps with
  | nil => exact .done
  | cons s rest ih =>
      refine .act (fun r same => all r (same ▸ List.mem_cons_self)) fun _ => ih fun r member => ?_
      exact all r (List.mem_cons_of_mem s member)

end Program.Writes

namespace Call

/-- **The calls by which a job advances** until it runs. -/
def Advances : Call → Prop
  | register _ | deploy _ | submit _ | start => True
  | await | interrupt | destroy | accumulators => False

/-- The program of a call, with its answer. -/
def program (call : Call) (job : String) (now : ℕ) : Program Answer := (call.operation job now).run

open Program in
/-- **A call that has found the record of its job** goes on to look into the store.  Then it refuses, or
it writes and ends; its last step is one that shows that the job is there. -/
inductive Goes (job : String) : Program Answer → Prop
  | refuses {e : ClusterError} (other : e ≠ .jobNotFound job) : Goes job (.done (.error e))
  | writes (steps : List Action) (last : Action) (puts : ∀ s ∈ steps, s.Puts job)
      (marks : last.Marks job) : Goes job (line (.ok .done) (steps ++ [last]))
  | looks {a : Action} {next : a.Answer → Program Answer} (lookup : a.isLookup = true)
      (later : ∀ answer, Goes job (next answer)) : Goes job (.act a next)

/-- **A call begins** by looking for the record of its job. -/
inductive Begins (job : String) (absent : Program Answer) : Program Answer → Prop
  | getJob {next : Except StoreError (Option Record) → Program Answer}
      (missing : next (.ok none) = absent)
      (stored : ∀ r : Record, r.Sound job → Goes job (next (.ok (some r)))) :
      Begins job absent (.act (.getJob job) next)

/-- What a call does when there is no record. -/
def absent (job : String) (now : ℕ) : Call → Program Answer
  | .register config => Program.line (.ok .done) [.putJob (Record.new job config now)]
  | _ => .done (.error (.jobNotFound job))

lemma absent_writes {call : Call} (fits : call.Fits) (job : String) (now : UInt64) :
    (call.absent job now.toNat).Writes job := by
  cases call with
  | register config =>
      refine .line _ fun r member => ?_
      obtain rfl : r = Record.new job config now.toNat := by simpa using member
      exact .ofNew fits now
  | _ => exact .done

/-! ## The calls -/

section Begin

variable {job : String} (valid : Job.isName job = true)

include valid

/-- To register a job is one look and one write. -/
lemma program_register (config : JobConfig) (now : ℕ) :
    (Call.register config).program job now = .act (.getJob job) fun
      | .error e => .done (.error (.state e))
      | .ok none => .line (.ok .done) [.putJob (Record.new job config now)]
      | .ok (some r) =>
        if r.status = .registered then
          .line (.ok .done) [.putJob { r with config := config, updatedAt := now }]
        else .done (.error (.jobAlreadyExists job)) := by
  simp only [program, operation, Operation.register, Operation.checkName, valid, if_true]
  refine congrArg (Program.act (.getJob job)) (funext fun answer => ?_)
  rcases answer with e | _ | r
  · rfl
  · rfl
  · show ExceptT.run ((if r.status = .registered then
        Operation.perform (.putJob { r with config := config, updatedAt := now })
      else throw (.jobAlreadyExists job)) >>= fun _ => return .done : Operation Reply) = _
    simp only
    split_ifs <;> rfl

/-- The other calls require the record. -/
lemma begins_required {call : Call} {now : ℕ} {f : Record → Operation Unit}
    (shape : call.operation job now = (Operation.requireJob job >>= f) >>= fun _ => return .done)
    (goes : ∀ r : Record, r.Sound job → Goes job (f r >>= fun _ => return .done : Operation Reply).run) :
    Begins job (.done (.error (.jobNotFound job))) (call.program job now) := by
  simp only [program, shape, Operation.requireJob, Operation.checkName, valid, if_true]
  exact .getJob rfl goes

end Begin

/-- To check resources is to look for each of them. -/
lemma goes_checkResources {job : String} {f : Unit → Operation Unit}
    (goes : Goes job (f () >>= fun _ => return .done : Operation Reply).run) (rs : List Resource) :
    Goes job ((Operation.checkResources job rs >>= f) >>= fun _ => return .done : Operation Reply).run := by
  induction rs with
  | nil => exact goes
  | cons x others ih =>
      refine .looks (a := .getResource job x.name) rfl fun answer => ?_
      rcases answer with e | _ | existing
      · exact .refuses (by simp)
      · exact ih
      · show Goes job (((if existing.sameContent x then Operation.checkResources job others
          else throw (.resourceConflict job x.name)) >>= f) >>= fun _ => return .done : Operation Reply).run
        split_ifs
        · exact ih
        · exact .refuses (by simp)

/-- **Every call by which a job advances** goes this way. -/
theorem begins {call : Call} (advances : call.Advances) (fits : call.Fits) {job : String}
    (valid : Job.isName job = true) (now : UInt64) :
    Begins job (call.absent job now.toNat) (call.program job now.toNat) := by
  cases call with
  | register config =>
      rw [program_register valid]
      refine .getJob rfl fun r sound => ?_
      simp only
      split_ifs
      · exact .writes [] _ (by simp) (sound.configure fits now)
      · exact .refuses (by simp)
  | deploy resources =>
      refine begins_required valid rfl fun r sound => ?_
      split_ifs with status
      · have early : r.status.rank < 3 := by
          rcases (by simpa using status : r.status = .registered ∨ r.status = .deployed) with h | h <;>
            simp [h, JobStatus.rank]
        refine goes_checkResources ?_ resources
        exact .writes [.putResources job resources] _ (by simp [Action.Puts])
          (sound.advance .deployed early (by decide) now)
      · exact .refuses (by simp [Operation.wrongStatus])
  | submit graph =>
      refine begins_required valid rfl fun r sound => ?_
      split_ifs with status
      · refine .looks (a := .listResources job) rfl fun answer => ?_
        rcases answer with e | resources
        · exact .refuses (by simp)
        · show Goes job ((if (Operation.missingReferences graph resources).isEmpty then do
              Operation.perform (.putGraph job graph)
              Operation.perform (.putJob (r.advance .submitted now.toNat))
            else throw (.graphRejected job (Operation.missingReferences graph resources)))
            >>= fun _ => return .done : Operation Reply).run
          split_ifs
          · exact .writes [.putGraph job graph] _ (by simp [Action.Puts])
              (sound.advance .submitted (by simp [status, JobStatus.rank]) (by decide) now)
          · exact .refuses (by simp)
      · exact .refuses (by simp [Operation.wrongStatus])
  | start =>
      refine begins_required valid rfl fun r sound => ?_
      by_cases started : r.executionStarted = true
      · simp only [started, if_true]
        exact .refuses (by simp)
      simp only [started, if_false, Bool.false_eq_true]
      split_ifs with status
      · refine .looks (a := .getGraph job) rfl fun answer => ?_
        rcases answer with e | _ | graph
        · exact .refuses (by simp)
        · exact .refuses (by simp [Operation.wrongStatus])
        · refine .looks (a := .listResources job) rfl fun answer => ?_
          rcases answer with e | resources
          · exact .refuses (by simp)
          · exact .writes [.putJob _] (.launch ⟨job, r.config, graph, resources⟩)
              (by simpa [Action.Puts] using sound.start status now) rfl
      · exact .refuses (by simp [Operation.wrongStatus])
  | await | interrupt | destroy | accumulators => exact advances.elim

/-! ## What a call comes to -/

/-- **The plan** of a call that has found its record. -/
inductive Plans (job : String) : Answer × List Action → Prop
  | refuses {e : ClusterError} (other : e ≠ .jobNotFound job) : Plans job (.error e, [])
  | writes {steps : List Action} {last : Action} (puts : ∀ s ∈ steps, s.Puts job)
      (marks : last.Marks job) : Plans job (.ok .done, steps ++ [last])

/-- **How far** a call that has found its record can have come, on a cluster. -/
inductive Halfway (job : String) (c : Cluster) (p : Program Answer) : Program Answer × Cluster → Prop
  | looking {q : Program Answer} (rest : Goes job q) : Halfway job c p (q, c)
  | writing {first rest : List Action} {last : Action} (puts : ∀ s ∈ first ++ rest, s.Puts job)
      (marks : last.Marks job) :
      Halfway job c p (.line (.ok .done) (rest ++ [last]), c.after first)
  | ended {steps : List Action} {last : Action} (puts : ∀ s ∈ steps, s.Puts job)
      (marks : last.Marks job) (all : p.plan c = (.ok .done, steps ++ [last])) :
      Halfway job c p (.done (.ok .done), c.after (steps ++ [last]))

lemma plan_writes {job : String} {steps : List Action} {last : Action}
    (puts : ∀ s ∈ steps, s.Puts job) (marks : last.Marks job) (c : Cluster) :
    (Program.line (.ok .done : Answer) (steps ++ [last])).plan c = (.ok .done, steps ++ [last]) := by
  refine Program.plan_line c _ fun s member => ?_
  rcases List.mem_append.mp member with first | final
  · exact (puts s first).isRead
  · obtain rfl := List.mem_singleton.mp final
    exact marks.isRead

namespace Goes

variable {job : String} {p : Program Answer}

lemma allWrites (h : Goes job p) : p.Writes job := by
  induction h with
  | refuses => exact .done
  | writes steps last puts marks =>
      refine .line _ fun r member => ?_
      rcases List.mem_append.mp member with first | final
      · exact puts _ first
      · obtain rfl := List.mem_singleton.mp final
        exact marks
  | @looks a next lookup later ih =>
      refine .act (fun r same => ?_) ih
      simp [same, Action.isLookup] at lookup

lemma plans (h : Goes job p) (c : Cluster) : Plans job (p.plan c) := by
  induction h with
  | refuses other => exact .refuses other
  | writes steps last puts marks =>
      rw [plan_writes puts marks]
      exact .writes puts marks
  | @looks a next lookup later ih =>
      have read := Action.isRead_of_isLookup lookup
      simpa only [Program.plan, read, if_true, Action.perform_of_isRead read] using ih _

/-- The run slots do not matter. -/
lemma plan_congr (h : Goes job p) {c d : Cluster} (same : c.store = d.store) : p.plan c = p.plan d := by
  induction h with
  | refuses => rfl
  | writes steps last puts marks => rw [plan_writes puts marks, plan_writes puts marks]
  | @looks a next lookup later ih =>
      have read := Action.isRead_of_isLookup lookup
      simp only [Program.plan, read, if_true, Action.perform_of_isRead read,
        Action.perform_of_isLookup lookup same, ih]

lemma halfway (h : Goes job p) (c : Cluster) (n : ℕ) : Halfway job c p (p.advance c n) := by
  induction h generalizing n with
  | refuses other =>
      rw [Program.advance_done]
      exact .looking (.refuses other)
  | writes steps last puts marks =>
      rw [Program.advance_line]
      rcases Nat.lt_or_ge steps.length n with past | within
      · rw [List.drop_eq_nil_of_le (by simpa using past), List.take_of_length_le (by simpa using past)]
        exact .ended puts marks (plan_writes puts marks c)
      · rw [List.drop_append_of_le_length within, List.take_append_of_le_length within]
        exact .writing (by rwa [List.take_append_drop]) marks
  | @looks a next lookup later ih =>
      cases n with
      | zero =>
          rw [Program.advance_zero]
          exact .looking (.looks lookup later)
      | succ n =>
          have read := Action.isRead_of_isLookup lookup
          rw [Program.advance, Action.perform_of_isRead read]
          have rest := ih (a.perform c).1 n
          generalize (next (a.perform c).1).advance c n = reached at rest ⊢
          cases rest with
          | looking goes => exact .looking goes
          | writing puts marks => exact .writing puts marks
          | ended puts marks all =>
              refine .ended puts marks ?_
              simpa only [Program.plan, read, if_true, Action.perform_of_isRead read] using all

end Goes
end Call
end ControlPlane
