import ControlPlane.Number.Fixed

/-!
# Health metrics

One sample of how a node is doing.  Not every platform tells everything; a figure that is not to be
had counts as `-1` where a number is needed.

* `MemoryInfo`, `HealthMetrics` — a sample.
* `HealthMetrics.exceedsThreshold` — whether it is worth saying.
* `HealthMetrics.line` — how it is said.
-/

namespace ControlPlane

/-! ## Figures -/

/-- What stands for a figure that is not to be had. -/
def unavailable : Double := .ofInt (-1)

/-- A figure, or what stands for it. -/
def figure (value : Option Double) : Double := value.getD unavailable

/-- The units of bytes, each a thousand and twenty-four times the one before it. -/
def byteUnits : List String := ["", "K", "M", "G", "T", "P", "E"]

/-- The greatest unit that a number of bytes exceeds, as its power; zero when it exceeds none. -/
def unitPower (bytes : Double) : Nat → Nat
  | 0 => 0
  | power + 1 =>
    if (Double.ofNat (Nat.pow 1024 (power + 1))).lt bytes then power + 1 else unitPower bytes power

/-- **A number of bytes** in the greatest unit that it exceeds, with one place. -/
def bytesText (bytes : Nat) : String :=
  let d := Double.ofNat bytes
  match unitPower d (byteUnits.length - 1) with
  | 0 => String.ofList (Decimal.ofNat bytes)
  | power =>
    let scaled := d.divMagnitude (Double.ofNat (Nat.pow 1024 power))
    String.ofList (scaled.fixed 1) ++ byteUnits.getD power ""

/-- A percentage with two places. -/
def percentText (p : Double) : String := String.ofList (p.fixed 2) ++ "%"

/-- A hundred times the quotient of two counts of bytes. -/
def percentOf (part whole : Nat) : Double :=
  if whole = 0 then unavailable
  else ((Double.ofNat 100).mulMagnitude (Double.ofNat part)).divMagnitude (Double.ofNat whole)

/-! ## Samples -/

/-- The memory of a node, in bytes. -/
structure MemoryInfo where
  used : Nat
  free : Nat
  total : Nat
  /-- What the process may grow to. -/
  max : Nat
  deriving DecidableEq, Repr

/-- What a platform tells. -/
structure Reading where
  memory : Option MemoryInfo
  cpuLoad : Option Double
  loadAverage : Option Double
  threads : Option Nat
  deriving DecidableEq, Repr

/-- One sample. -/
structure HealthMetrics where
  memory : Option MemoryInfo
  /-- The load that the process makes, in percent. -/
  cpuLoad : Double
  /-- The load of the system, in percent. -/
  loadAverage : Double
  threads : Option Nat
  /-- The number of jobs that run. -/
  activeJobs : Nat
  /-- The percentage above which a sample is worth saying. -/
  threshold : Double
  deriving DecidableEq, Repr

namespace HealthMetrics

/-- The sample that a reading gives. -/
def ofReading (r : Reading) (activeJobs : Nat) (threshold : Double) : HealthMetrics :=
  ⟨r.memory, figure r.cpuLoad, figure r.loadAverage, r.threads, activeJobs, threshold⟩

/-- How much of all memory is used. -/
def usedOfTotal (m : HealthMetrics) : Double :=
  figure (m.memory.map fun i => percentOf i.used i.total)

/-- How much of the memory is used that the process may have. -/
def usedOfMax (m : HealthMetrics) : Double :=
  figure (m.memory.map fun i => percentOf i.used i.max)

/-- **Whether memory or a load is above the threshold.** -/
def exceedsThreshold (m : HealthMetrics) : Bool :=
  m.threshold.lt m.usedOfMax || m.threshold.lt m.cpuLoad || m.threshold.lt m.loadAverage

/-- **The sample in one line.** -/
def line (m : HealthMetrics) : String :=
  let memory := match m.memory with
    | some i =>
      s!"memory.used={bytesText i.used}, memory.free={bytesText i.free}, "
        ++ s!"memory.total={bytesText i.total}, memory.max={bytesText i.max}, "
    | none => "memory=unavailable, "
  let threads := match m.threads with
    | some n => String.ofList (Decimal.ofNat n)
    | none => "-1"
  memory
    ++ s!"memory.used/total={percentText m.usedOfTotal} "
    ++ s!"memory.used/max={percentText m.usedOfMax} "
    ++ s!"load.process={percentText m.cpuLoad}, "
    ++ s!"load.systemAverage={percentText m.loadAverage} "
    ++ s!"thread.count={threads}, jobs.active={m.activeJobs}"

end HealthMetrics

end ControlPlane
