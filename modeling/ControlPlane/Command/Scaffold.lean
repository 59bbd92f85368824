import ControlPlane.Command.Options
import ControlPlane.Config

/-!
# A configuration to begin with

Writes a configuration file that points at a cluster, unless there is one already.
-/

namespace ControlPlane.Command

/-- Where to write a configuration, and the address of the cluster in it. -/
structure Scaffold where
  address : String
  path : String
  deriving DecidableEq, Repr

namespace Scaffold

def options : List OptionSpec := [⟨"address", some 'a', false⟩, ⟨"path", some 'p', false⟩]

def ofOptions (g : Given) : Option Scaffold := do
  return { address := (required g "address").getD ClusterConfig.defaultAddress
           path := ← path? g "path" (some ".") }

/-- Why nothing was written. -/
inductive Failure where
  | alreadyThere (path : String)
  | file (e : FileError)

def Failure.message : Failure → String
  | .alreadyThere path => s!"{path} already exists"
  | .file e => e.message

/-- The path of the file. -/
def target (a : Scaffold) : List Char := Path.push a.path.toList "gridjob.toml".toList

/-- The text of the file. -/
def content (a : Scaffold) : String := ((ClientConfig.scaffold a.address).toToml?).getD ""

/-- **Writes the file**; answers what is said about it. -/
def perform (a : Scaffold) (files : FileTree) : Except Failure (String × FileTree) :=
  if files.pathExists a.target then .error (.alreadyThere (String.ofList a.target))
  else do
    let files ← (files.makeDirectories a.path.toList).mapError Failure.file
    let files ← (files.write a.target a.content.toUTF8.toList).mapError Failure.file
    return (s!"✓ Generated {String.ofList a.target}\n", files)

end Scaffold

end ControlPlane.Command
