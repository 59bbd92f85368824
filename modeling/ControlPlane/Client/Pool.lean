import ControlPlane.Job.Error

/-!
# Worker pools

Each handle has a pool of its own, on whose threads its operations run.  A pool takes work until it
is shut down.
-/

namespace ControlPlane

/-- The pool of a job. -/
structure Pool where
  job : String
  config : PoolConfig
  shutDown : Bool
  deriving DecidableEq

namespace Pool

/-- A new pool. -/
def new (job : String) (config : PoolConfig) : Pool := ⟨job, config, false⟩

/-- What the names of a pool's threads begin with; a number follows. -/
def threadName (p : Pool) : String := s!"{p.config.threadPrefix}-{p.job}"

/-- **Work on a pool**: it runs, unless the pool has been shut down. -/
def run (p : Pool) (work : Pool → Except JobError α) : Except JobError α :=
  if p.shutDown then .error (.workerPool p.job "task was cancelled") else work p

/-- From now on the pool takes no work. -/
def shutdown (p : Pool) : Pool := { p with shutDown := true }

end Pool

end ControlPlane
