import ControlPlane.FileTree.Basic
import ControlPlane.Json.Decoder
import ControlPlane.Toml.Decoder
import ControlPlane.Toml.Document
import ControlPlane.Toml.Writer

/-!
# Configuration

What a client is told about the cluster, its pools and its jobs.  A configuration is kept in a
TOML file and is read leniently: what is missing has a default, and what is unknown is left alone.

* `JobConfig` — what one job is run with.
* `ClientConfig` — everything, with `resolve` for the settings of one job.
* `ClientConfig.ofToml?`, `ClientConfig.toToml?` — the file.
-/

namespace ControlPlane

/-! ## Settings of a job -/

/-- What a job is run with. -/
structure JobConfig where
  /-- Parallel processors for each member of the cluster. -/
  parallelism : Nat
  /-- Items that are scheduled together. -/
  chunkSize : Nat
  /-- Properties that are handed on to the executor. -/
  properties : Table String
  deriving DecidableEq

namespace JobConfig

/-- Counts of a job's settings are below this bound. -/
def countBound : Nat := 0x100000000

def standard : JobConfig := ⟨4, 256, .empty⟩

instance : Inhabited JobConfig := ⟨standard⟩

/-- The settings with one more property. -/
def withProperty (c : JobConfig) (key value : String) : JobConfig :=
  { c with properties := c.properties.insert key value }

def toJson (c : JobConfig) : Json.Value :=
  .object [("parallelism", .number (.int c.parallelism)),
    ("chunk_size", .number (.int c.chunkSize)),
    ("properties", .object (c.properties.map Json.Value.string).entries)]

open Json Decoder in
/-- Reads the settings of a job. -/
def decoder : Decoder JobConfig := fun depth t => do
  let count := word 32
  let strings := table string
  let f ← record [("parallelism", check count), ("chunk_size", check count),
    ("properties", check strings)] depth t
  return { parallelism := ← f.orElse "parallelism" count standard.parallelism
           chunkSize := ← f.orElse "chunk_size" count standard.chunkSize
           properties := ← f.orElse "properties" strings standard.properties }

/-- The settings that a TOML value gives. -/
def ofToml? (v : Toml.Value) : Option JobConfig := do
  let f ← v.fields? ["parallelism", "chunk_size", "properties"]
  return { parallelism := ← f.orElse "parallelism" (·.below? countBound) standard.parallelism
           chunkSize := ← f.orElse "chunk_size" (·.below? countBound) standard.chunkSize
           properties := ← f.orElse "properties" (·.table? (·.string?)) standard.properties }

/-- The sections below the header of a job's settings. -/
def sections (path : List String) (c : JobConfig) : List Toml.Section :=
  [⟨path, [("parallelism", .integer c.parallelism), ("chunk_size", .integer c.chunkSize)]⟩,
    ⟨path ++ ["properties"], c.properties.entries.map fun e => (e.1, .string e.2)⟩]

end JobConfig

/-! ## Settings of a client -/

/-- Where the cluster runs. -/
inductive ClusterMode where
  /-- In the process of the client. -/
  | inProcess
  /-- Behind an HTTP address. -/
  | remote
  deriving DecidableEq, Repr, Inhabited

namespace ClusterMode

def name : ClusterMode → String
  | .inProcess => "local"
  | .remote => "remote"

def choices : List (String × ClusterMode) := [("local", .inProcess), ("remote", .remote)]

def decoder : Json.Decoder ClusterMode := .choice choices

end ClusterMode

/-- How the cluster is reached; the address counts only for a remote one. -/
structure ClusterConfig where
  mode : ClusterMode
  address : String
  deriving DecidableEq

namespace ClusterConfig

def defaultAddress : String := "127.0.0.1:8470"

def standard : ClusterConfig := ⟨.remote, defaultAddress⟩

def toJson (c : ClusterConfig) : Json.Value :=
  .object [("mode", .string c.mode.name), ("address", .string c.address)]

open Json Decoder in
def decoder : Decoder ClusterConfig := fun depth t => do
  let f ← record [("mode", check ClusterMode.decoder), ("address", check string)] depth t
  return { mode := ← f.orElse "mode" ClusterMode.decoder standard.mode
           address := ← f.orElse "address" string standard.address }

def ofToml? (v : Toml.Value) : Option ClusterConfig := do
  let f ← v.fields? ["mode", "address"]
  return { mode := ← f.orElse "mode" (·.choice? ClusterMode.choices) standard.mode
           address := ← f.orElse "address" (·.string?) standard.address }

end ClusterConfig

/-- The pool of worker threads that each handle has. -/
structure PoolConfig where
  workerThreads : Nat
  threadPrefix : String
  deriving DecidableEq

namespace PoolConfig

/-- The number of threads is below this bound. -/
def threadBound : Nat := 0x10000000000000000

def standard : PoolConfig := ⟨2, "gridjob"⟩

def toJson (c : PoolConfig) : Json.Value :=
  .object [("worker_threads", .number (.int c.workerThreads)),
    ("thread_prefix", .string c.threadPrefix)]

open Json Decoder in
def decoder : Decoder PoolConfig := fun depth t => do
  let f ← record [("worker_threads", check (word 64)), ("thread_prefix", check string)] depth t
  return { workerThreads := ← f.orElse "worker_threads" (word 64) standard.workerThreads
           threadPrefix := ← f.orElse "thread_prefix" string standard.threadPrefix }

def ofToml? (v : Toml.Value) : Option PoolConfig := do
  let f ← v.fields? ["worker_threads", "thread_prefix"]
  return { workerThreads := ← f.orElse "worker_threads" (·.below? threadBound)
              standard.workerThreads
           threadPrefix := ← f.orElse "thread_prefix" (·.string?) standard.threadPrefix }

end PoolConfig

/-- The settings of jobs: those of most jobs, and those of some by name. -/
structure JobsConfig where
  defaults : JobConfig
  overrides : Table JobConfig
  deriving DecidableEq

namespace JobsConfig

def standard : JobsConfig := ⟨.standard, .empty⟩

def toJson (c : JobsConfig) : Json.Value :=
  .object [("defaults", c.defaults.toJson),
    ("overrides", .object (c.overrides.map JobConfig.toJson).entries)]

open Json Decoder in
def decoder : Decoder JobsConfig := fun depth t => do
  let overrides := table JobConfig.decoder
  let f ← record [("defaults", check JobConfig.decoder), ("overrides", check overrides)] depth t
  return { defaults := ← f.orElse "defaults" JobConfig.decoder standard.defaults
           overrides := ← f.orElse "overrides" overrides standard.overrides }

def ofToml? (v : Toml.Value) : Option JobsConfig := do
  let f ← v.fields? ["defaults", "overrides"]
  return { defaults := ← f.orElse "defaults" JobConfig.ofToml? standard.defaults
           overrides := ← f.orElse "overrides" (·.table? JobConfig.ofToml?) standard.overrides }

/-- The sections of jobs.  The header of the overrides is written only when there are none. -/
def sections (c : JobsConfig) : List Toml.Section :=
  c.defaults.sections ["jobs", "defaults"]
    ++ if c.overrides.entries.isEmpty then [⟨["jobs", "overrides"], []⟩]
      else c.overrides.entries.flatMap fun e => e.2.sections ["jobs", "overrides", e.1]

end JobsConfig

/-- The settings of a client. -/
structure ClientConfig where
  cluster : ClusterConfig
  pool : PoolConfig
  jobs : JobsConfig
  deriving DecidableEq

/-- Why there is no configuration. -/
inductive ConfigError where
  /-- The file could not be read. -/
  | unreadable (cause : FileError)
  /-- The text is no TOML document, or one of another shape. -/
  | malformed
  /-- A pool without threads. -/
  | noWorkers
  deriving DecidableEq, Repr

/-- The message of a failure; that of a malformed text is only a general one. -/
def ConfigError.message : ConfigError → String
  | .unreadable cause => cause.message
  | .malformed => "invalid configuration"
  | .noWorkers => "[pool].worker_threads must be at least 1"

namespace ClientConfig

def standard : ClientConfig := ⟨.standard, .standard, .standard⟩

instance : Inhabited ClientConfig := ⟨standard⟩

/-- A cluster in the process of the client, and defaults for all else. -/
def inProcess : ClientConfig :=
  { standard with cluster := { ClusterConfig.standard with mode := .inProcess } }

/-- A remote cluster at an address, and defaults for all else. -/
def scaffold (address : String) : ClientConfig := { standard with cluster := ⟨.remote, address⟩ }

/-- **The settings of one job**: its own ones, or those of most jobs. -/
def resolve (c : ClientConfig) (job : String) : JobConfig :=
  (c.jobs.overrides.find? job).getD c.jobs.defaults

/-- The settings that are given for one job, or else those of the configuration. -/
def choose (c : ClientConfig) (job : String) (given : Option JobConfig) : JobConfig :=
  given.getD (c.resolve job)

/-! ### JSON -/

def toJson (c : ClientConfig) : Json.Value :=
  .object [("cluster", c.cluster.toJson), ("pool", c.pool.toJson), ("jobs", c.jobs.toJson)]

open Json Decoder in
def decoder : Decoder ClientConfig := fun depth t => do
  let f ← record [("cluster", check ClusterConfig.decoder), ("pool", check PoolConfig.decoder),
    ("jobs", check JobsConfig.decoder)] depth t
  return { cluster := ← f.orElse "cluster" ClusterConfig.decoder standard.cluster
           pool := ← f.orElse "pool" PoolConfig.decoder standard.pool
           jobs := ← f.orElse "jobs" JobsConfig.decoder standard.jobs }

/-! ### TOML -/

/-- The configuration that a table gives. -/
def ofTable? (entries : List (String × Toml.Value)) : Option ClientConfig := do
  let f : Toml.Fields := entries
  return { cluster := ← f.orElse "cluster" ClusterConfig.ofToml? standard.cluster
           pool := ← f.orElse "pool" PoolConfig.ofToml? standard.pool
           jobs := ← f.orElse "jobs" JobsConfig.ofToml? standard.jobs }

/-- **The configuration that a text gives**; its pool has at least one thread. -/
def ofToml? (text : String) : Except ConfigError ClientConfig :=
  match (Toml.parse? text.toList).bind ofTable? with
  | none => .error .malformed
  | some c => if c.pool.workerThreads = 0 then .error .noWorkers else .ok c

/-- The configuration in a file. -/
def ofFile? (files : FileTree) (path : String) : Except ConfigError ClientConfig :=
  match files.readText path.toList with
  | .error e => .error (.unreadable e)
  | .ok text => ofToml? text

/-- The sections of a configuration. -/
def sections (c : ClientConfig) : List Toml.Section :=
  [⟨["cluster"], [("mode", .string c.cluster.mode.name), ("address", .string c.cluster.address)]⟩,
    ⟨["pool"], [("worker_threads", .integer c.pool.workerThreads),
      ("thread_prefix", .string c.pool.threadPrefix)]⟩]
    ++ c.jobs.sections

/-- **The text of a configuration**, unless its number of threads is too large for an integer. -/
def toToml? (c : ClientConfig) : Option String :=
  if (c.pool.workerThreads : Int) ≤ Toml.maxInteger then
    some (String.ofList (Toml.documentText c.sections))
  else none

end ClientConfig

end ControlPlane
