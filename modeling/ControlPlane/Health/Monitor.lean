import ControlPlane.Health.Level
import ControlPlane.Health.Metrics

/-!
# The monitor

The monitor of a node takes a sample after every interval and logs some of them.  It only looks on.

* `Monitor.logs` — which samples are logged.
* `Monitor.run` — how many are, of those taken until the monitor is stopped.
-/

namespace ControlPlane

/-- A monitor before it is started.  Times are counted in milliseconds. -/
structure Monitor where
  level : HealthLevel
  interval : Nat
  threshold : Double

namespace Monitor

/-- The threshold of a monitor that is told of none. -/
def standardThreshold : Double := .ofNat 70

/-- Whether there is anything to start. -/
def starts (m : Monitor) : Bool := m.level ≠ .off

/-- **Which samples are logged.** -/
def logs (m : Monitor) (sample : HealthMetrics) : Bool :=
  match m.level with
  | .off => false
  | .silent => sample.exceedsThreshold
  | .noisy => true

/-- The number of samples until the monitor is stopped. -/
def ticks (m : Monitor) (stop : Nat) : Nat := stop / m.interval

/-- **The number of samples that are logged** until the monitor is stopped, when the platform gives
`reading n` for the sample that comes after `n` others. -/
def run (m : Monitor) (stop activeJobs : Nat) (reading : Nat → Reading) : Nat :=
  ((List.range (m.ticks stop)).filter fun n =>
    m.logs (.ofReading (reading n) activeJobs m.threshold)).length

end Monitor

end ControlPlane
