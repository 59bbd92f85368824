import ControlPlane.Accumulator.Basic
import ControlPlane.Graph
import ControlPlane.Registry.Record
import ControlPlane.Resource.Basic

/-!
# The registry store

Four tables of rows, in each of which a row is the JSON text of what it holds.  A row that is read
is decoded anew every time, so a row may be there and yet not be readable.

* `Row`, `Row.of`, `Row.decode` — rows and what they hold.
* `Store` — the tables, with one function for each transaction.
* `resourceKey`, `resourceOwner` — how the rows of resources belong to jobs.
-/

namespace ControlPlane

/-! ## Failures -/

/-- The part of the store's work that failed. -/
inductive StoreStage where
  | opening
  | transaction
  | table
  | read
  | write
  deriving DecidableEq, Repr, Inhabited

namespace StoreStage

def all : List StoreStage := [.opening, .transaction, .table, .read, .write]

def name : StoreStage → String
  | .opening => "open"
  | .transaction => "transaction"
  | .table => "table"
  | .read => "read"
  | .write => "write"

end StoreStage

/-- Why the store gave no answer. -/
inductive StoreError where
  /-- The medium failed. -/
  | storage (stage : StoreStage) (message : String)
  /-- A row cannot be decoded. -/
  | codec (fault : Json.Fault)
  deriving DecidableEq, Repr

/-- What is wrong with a row, in words. -/
def faultText : Json.Fault → String
  | .endOfText => "the row ends too early"
  | .malformed => "the row is no JSON text"
  | .mismatched => "the row has another shape"

/-- The message of a failure. -/
def StoreError.message : StoreError → String
  | .storage stage message => s!"registry {stage.name} failed: {message}"
  | .codec fault => s!"registry record codec: {faultText fault}"

/-! ## Rows -/

/-- The bytes of a row. -/
abbrev Row := ByteArray

namespace Row

/-- The row of a JSON value. -/
def of (v : Json.Value) : Row := v.text.toUTF8

/-- What a row holds. -/
def decode (d : Json.Decoder α) (row : Row) : Except StoreError α :=
  match String.fromUTF8? row with
  | none => .error (.codec .malformed)
  | some text =>
    match Json.decode d text.toList with
    | .ok a => .ok a
    | .error fault => .error (.codec fault)

end Row

/-! ## Keys of resources -/

/-- The key of a resource: the job's name and the resource's, a colon between them. -/
def resourceKey (job name : String) : String := job ++ ":" ++ name

/-- **The job to which a key belongs**: what stands before the last colon, since names of resources
hold none. -/
def resourceOwner (key : String) : Option String :=
  (splitLast ':' key.toList).map fun parts => String.ofList parts.1

/-! ## The store -/

/-- The tables of the registry. -/
structure Store where
  jobs : Table Row
  resources : Table Row
  graphs : Table Row
  accumulators : Table Row

namespace Store

def empty : Store := ⟨.empty, .empty, .empty, .empty⟩

instance : Inhabited Store := ⟨empty⟩

/-- What the row under a name holds. -/
def get (rows : Table Row) (d : Json.Decoder α) (name : String) : Except StoreError (Option α) :=
  match rows.find? name with
  | none => .ok none
  | some row => (Row.decode d row).map some

/-! ### Records -/

def putJob (s : Store) (r : Record) : Store :=
  { s with jobs := s.jobs.insert r.name (.of r.toJson) }

def getJob (s : Store) (job : String) : Except StoreError (Option Record) :=
  get s.jobs Record.decoder job

/-- All records in order of their names. -/
def listJobs (s : Store) : Except StoreError (List Record) :=
  s.jobs.values.mapM (Row.decode Record.decoder)

/-! ### Resources -/

/-- Puts several resources; the last one of a name counts. -/
def putResources (s : Store) (job : String) (rs : List Resource) : Store :=
  { s with
    resources := s.resources.insertMany (rs.map fun r => (resourceKey job r.name, .of r.toJson)) }

def getResource (s : Store) (job name : String) : Except StoreError (Option Resource) :=
  get s.resources Resource.decoder (resourceKey job name)

/-- Whether a key belongs to a job. -/
def isOwned (job key : String) : Bool := resourceOwner key = some job

/-- The resources of a job in order of their keys. -/
def listResources (s : Store) (job : String) : Except StoreError (List Resource) :=
  (s.resources.filter (isOwned job)).values.mapM (Row.decode Resource.decoder)

/-! ### Graphs and accumulators -/

def putGraph (s : Store) (job : String) (g : Graph) : Store :=
  { s with graphs := s.graphs.insert job (.of g.toJson) }

def getGraph (s : Store) (job : String) : Except StoreError (Option Graph) :=
  get s.graphs Graph.decoder job

def putAccumulators (s : Store) (job : String) (a : Accumulators) : Store :=
  { s with accumulators := s.accumulators.insert job (.of a.toJson) }

def getAccumulators (s : Store) (job : String) : Except StoreError (Option Accumulators) :=
  get s.accumulators Accumulators.decoder job

/-! ### Removal -/

/-- **Removes a job** and all that belongs to it; answers whether there was a record. -/
def purge (s : Store) (job : String) : Bool × Store :=
  (s.jobs.contains job,
    { jobs := s.jobs.erase job
      resources := s.resources.filter fun key => !isOwned job key
      graphs := s.graphs.erase job
      accumulators := s.accumulators.erase job })

/-! ### Raw rows -/

/-- The four tables by name. -/
inductive TableName where
  | jobs
  | resources
  | graphs
  | accumulators
  deriving DecidableEq, Repr

def TableName.all : List TableName := [.jobs, .resources, .graphs, .accumulators]

def TableName.name : TableName → String
  | .jobs => "jobs"
  | .resources => "resources"
  | .graphs => "graphs"
  | .accumulators => "accumulators"

/-- Puts bytes into a table, whatever they are. -/
def putRow (s : Store) (table : TableName) (key : String) (row : Row) : Store :=
  match table with
  | .jobs => { s with jobs := s.jobs.insert key row }
  | .resources => { s with resources := s.resources.insert key row }
  | .graphs => { s with graphs := s.graphs.insert key row }
  | .accumulators => { s with accumulators := s.accumulators.insert key row }

/-! ### Files -/

/-- **Opens the store at a path** where none has been before: the file may be missing, or be there
without content. -/
def openFresh (files : FileTree) (path : String) : Except StoreError Store :=
  match files.read path.toList with
  | .ok [] => .ok empty
  | .ok _ => .error (.storage .opening "the file is no registry")
  | .error .notFound =>
    match files.write path.toList [] with
    | .ok _ => .ok empty
    | .error e => .error (.storage .opening e.message)
  | .error e => .error (.storage .opening e.message)

end Store

end ControlPlane
