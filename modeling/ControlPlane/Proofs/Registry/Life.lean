import Mathlib
import ControlPlane.Cluster.Operation
import ControlPlane.Proofs.Registry.Row

/-!
# The life of a record

A record goes through its statuses in one direction.  This module says what holds of a record at any
time of its life, and how an older record of a job is related to a newer one.

* `Record.Sound` — the fields of a record agree with its status.
* `Record.Precedes` — the order of the records of one registration; it is reflexive and transitive.
* `Record.Sound.configure`, `advance`, `start`, `finish` — the changes that the cluster makes to a
  record keep it sound, and each of them has a lemma that says that it goes forward.
-/

namespace ControlPlane

/-- How far a status is on the way; the three outcomes are its end. -/
def JobStatus.rank : JobStatus → ℕ
  | .registered => 0
  | .deployed => 1
  | .submitted => 2
  | .running => 3
  | .completed | .failed | .interrupted => 4

namespace Record

/-- A record shows how the execution of its job has ended, or that it goes on. -/
def Tells (r : Record) : Option Job.Outcome → Prop
  | none => r.status = .running
  | some outcome => r.status = Operation.statusOf outcome ∧ r.failure = Operation.reasonOf outcome

/-- Only a record of a started job shows that much. -/
lemma Tells.rank {r : Record} {outcome : Option Job.Outcome} (h : r.Tells outcome) :
    3 ≤ r.status.rank := by
  rcases outcome with _ | outcome
  · simp [show r.status = .running from h, JobStatus.rank]
  · cases outcome <;> simp [h.1, Operation.statusOf, JobStatus.rank]

/-- **The fields of a record agree** with the name of its row and with its status. -/
structure Sound (job : String) (r : Record) : Prop where
  name : r.name = job
  fits : r.Fits
  /-- An execution has been accepted exactly when the job runs or has ended. -/
  started : r.executionStarted = true ↔ r.status = .running ∨ r.status.isFinished = true
  /-- There is a reason exactly when the job has failed. -/
  failed : r.failure.isSome = true ↔ r.status = .failed

/-- **One record of a job comes before another** of the same registration: the status does not move back,
and the settings do not change once something has been deployed. -/
structure Precedes (r s : Record) : Prop where
  status : r.status.rank ≤ s.status.rank
  config : r.status ≠ .registered → s.config = r.config

namespace Precedes

lemma refl (r : Record) : r.Precedes r := ⟨le_rfl, fun _ => rfl⟩

/-- Who is no longer registered does not get there again. -/
lemma not_registered {r s : Record} (h : r.Precedes s) (moved : r.status ≠ .registered) :
    s.status ≠ .registered := by
  intro back
  have forward := h.status
  rw [back] at forward
  cases status : r.status <;> simp_all [JobStatus.rank]

/-- Who has ended does not go back. -/
lemma finished {r s : Record} (h : r.Precedes s) (ended : r.status.isFinished = true) :
    s.status.isFinished = true := by
  have forward := h.status
  cases before : r.status <;> cases after : s.status <;>
    simp_all [JobStatus.rank, JobStatus.isFinished]

lemma trans {r s t : Record} (first : r.Precedes s) (second : s.Precedes t) : r.Precedes t where
  status := first.status.trans second.status
  config := by
    intro moved
    rw [second.config (first.not_registered moved), first.config moved]

/-- A change that keeps the settings and does not move a record back. -/
lemma of_config {r s : Record} (status : r.status.rank ≤ s.status.rank) (config : s.config = r.config) :
    r.Precedes s :=
  ⟨status, fun _ => config⟩

/-- As long as nothing has been deployed, the settings may change. -/
lemma of_registered {r s : Record} (before : r.status = .registered) : r.Precedes s where
  status := by simp [before, JobStatus.rank]
  config := fun moved => absurd before moved

end Precedes

/-! ## The changes to a record -/

/-- The record of a job whose execution has ended. -/
def finish (r : Record) (outcome : Job.Outcome) (now : ℕ) : Record :=
  { r with failure := Operation.reasonOf outcome }.advance (Operation.statusOf outcome) now

/-- The end of an execution is as far as a record can come. -/
lemma rank_finish (r s : Record) (outcome : Job.Outcome) (now : ℕ) :
    r.status.rank ≤ (s.finish outcome now).status.rank := by
  have last : (s.finish outcome now).status.rank = 4 := by
    cases outcome <;> rfl
  rw [last]
  cases r.status <;> simp [JobStatus.rank]

namespace Sound

variable {job : String} {r : Record}

/-- An execution has been accepted exactly when the record has come so far. -/
lemma started_iff (h : r.Sound job) : r.executionStarted = true ↔ 3 ≤ r.status.rank := by
  rw [h.started]
  cases r.status <;> simp [JobStatus.rank, JobStatus.isFinished]

/-- A record before its execution: it does not say that one has been accepted. -/
lemma not_started (h : r.Sound job) (early : r.status.rank < 3) : r.executionStarted = false := by
  rw [← Bool.not_eq_true, h.started_iff]
  omega

/-- A newer record of a job that has been started has been started. -/
lemma started_mono {s : Record} (h : r.Sound job) (h' : s.Sound job) (forward : r.Precedes s)
    (started : r.executionStarted = true) : s.executionStarted = true :=
  h'.started_iff.mpr ((h.started_iff.mp started).trans forward.status)

lemma ofNew {config : JobConfig} (fits : config.Fits) (now : UInt64) :
    (Record.new job config now.toNat).Sound job where
  name := rfl
  fits := ⟨fits, now.toNat_lt, now.toNat_lt⟩
  started := by simp [Record.new, JobStatus.isFinished]
  failed := by simp [Record.new]

lemma configure (h : r.Sound job) {config : JobConfig} (fits : config.Fits) (now : UInt64) :
    Sound job { r with config := config, updatedAt := now.toNat } where
  name := h.name
  fits := ⟨fits, h.fits.createdAt, now.toNat_lt⟩
  started := h.started
  failed := h.failed

/-- The steps before the execution. -/
lemma advance (h : r.Sound job) (status : JobStatus) (before : r.status.rank < 3)
    (after : status.rank < 3) (now : UInt64) : Sound job (r.advance status now.toNat) where
  name := h.name
  fits := ⟨h.fits.config, h.fits.createdAt, now.toNat_lt⟩
  started := by
    rw [show (r.advance status now.toNat).executionStarted = false from h.not_started before]
    cases status <;> simp_all [Record.advance, JobStatus.rank, JobStatus.isFinished]
  failed := by
    rw [show (r.advance status now.toNat).failure = r.failure from rfl, h.failed]
    constructor
    · intro failed
      simp [failed, JobStatus.rank] at before
    · intro failed
      rw [show status = .failed from failed] at after
      simp [JobStatus.rank] at after

lemma start (h : r.Sound job) (before : r.status = .submitted) (now : UInt64) :
    Sound job ({ r with executionStarted := true }.advance .running now.toNat) where
  name := h.name
  fits := ⟨h.fits.config, h.fits.createdAt, now.toNat_lt⟩
  started := by simp [Record.advance]
  failed := by
    have := h.failed
    simp_all [Record.advance]

lemma finish (h : r.Sound job) (before : 3 ≤ r.status.rank) (outcome : Job.Outcome)
    (now : UInt64) : Sound job (r.finish outcome now.toNat) where
  name := h.name
  fits := ⟨h.fits.config, h.fits.createdAt, now.toNat_lt⟩
  started := by
    have started := h.started_iff.mpr before
    cases outcome <;>
      simp [Record.finish, Record.advance, Operation.statusOf, JobStatus.isFinished, started]
  failed := by
    cases outcome <;>
      simp [Record.finish, Record.advance, Operation.statusOf, Operation.reasonOf]

end Sound

end Record

end ControlPlane
