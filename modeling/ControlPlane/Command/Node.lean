import ControlPlane.Cluster.Schedule
import ControlPlane.Command.Options
import ControlPlane.Health.Level

/-!
# A node

The program of a cluster on one node: it opens the registry in its data directory, acknowledges the
graphs that it is sent, and serves until it is told to stop.  What it has stored is there when it is
started again.

* `NodeOptions` — how a node is started.
* `Disk.boot`, `Disk.shutDown` — its beginning and its end.
-/

namespace ControlPlane.Command

/-- How a node is started. -/
structure NodeOptions where
  port : Nat
  dataDirectory : String
  healthLevel : HealthLevel
  /-- The seconds between two samples. -/
  healthInterval : Nat
  deriving DecidableEq, Repr

namespace NodeOptions

def options : List OptionSpec :=
  [⟨"port", none, false⟩, ⟨"data-dir", none, false⟩, ⟨"health-level", none, false⟩,
    ⟨"health-interval", none, false⟩]

/-- A count that an option gives. -/
def count? (g : Given) (name : String) (bound missing : Nat) : Option Nat :=
  match g.lookup name with
  | some text => Decimal.count? bound text.toList
  | none => some missing

def ofOptions (g : Given) : Option NodeOptions := do
  return { port := ← count? g "port" 0x10000 8470
           dataDirectory := ← path? g "data-dir" (some "/var/lib/gridjob")
           healthLevel := ← HealthLevel.parse? ((g.lookup "health-level").getD "silent")
           healthInterval := ← count? g "health-interval" 0x10000000000000000 20 }

/-- The options that arguments give. -/
def ofArguments : List String → Invocation NodeOptions
  | "standalone" :: rest => (readOptions options [] rest).bind ofOptions
  | argument :: _ =>
    if argument = "--help" || argument = "-h" || argument = "help" then .help
    else if argument = "--version" || argument = "-V" then .version
    else .misuse
  | [] => .misuse

/-- The path of the registry. -/
def registryPath (o : NodeOptions) : List Char :=
  Path.push o.dataDirectory.toList "registry.redb".toList

end NodeOptions

/-- Files, and the registries that nodes have left at some places. -/
structure Disk where
  files : FileTree
  registries : List (Place × Store)

namespace Disk

/-- The place of a node's registry, if its directory is there. -/
def placeOf (d : Disk) (o : NodeOptions) : Place :=
  match d.files.locate o.registryPath with
  | .ok (place, _) => place
  | .error _ => placeBelowHome d.files o
where
  /-- The place that the file will have. -/
  placeBelowHome (files : FileTree) (o : NodeOptions) : Place :=
    match files.locate o.dataDirectory.toList with
    | .ok (place, _) => place ++ ["registry.redb"]
    | .error _ => []

/-- **The store of a node that starts**, or the message of its failure. -/
def boot (d : Disk) (o : NodeOptions) : Except String (Store × Disk) :=
  match d.files.makeDirectories o.dataDirectory.toList with
  | .error e => .error e.message
  | .ok files =>
    let d := { d with files := files }
    match d.registries.lookup (d.placeOf o) with
    | some store => .ok (store, d)
    | none =>
      match Store.openFresh files (String.ofList o.registryPath) with
      | .ok store => .ok (store, d)
      | .error e => .error e.message

/-- **The disk after a node has stopped.** -/
def shutDown (d : Disk) (o : NodeOptions) (store : Store) : Disk :=
  let place := d.placeOf o
  { d with registries := (place, store) :: d.registries.filter fun r => r.1 != place }

end Disk

/-- The cluster of a node. -/
def nodeCluster (store : Store) : Cluster := .ofStore store acknowledge

end ControlPlane.Command
