import ControlPlane.FileTree.Basic

/-!
# Finding code units

A code unit is known by an identifier such as `com.acme.Tokenizer` and lies in a file below a root
directory: where the pieces between the points name directories, or, when there is no such file,
directly under the whole identifier.
-/

namespace ControlPlane

/-- Loads code units from below a root directory. -/
structure CodeLoader where
  root : List Char
  deriving DecidableEq, Repr

namespace CodeLoader

/-- The path of an identifier whose pieces name directories. -/
def nested (loader : CodeLoader) (identifier : List Char) : List Char :=
  Path.push loader.root (Path.ofPieces (pieces (· = '.') identifier))

/-- The path of an identifier as it stands. -/
def flat (loader : CodeLoader) (identifier : List Char) : List Char :=
  Path.push loader.root identifier

/-- The path under which a code unit is looked for. -/
def resolve (loader : CodeLoader) (files : FileTree) (identifier : List Char) : List Char :=
  if files.isFile (loader.nested identifier) then loader.nested identifier
  else loader.flat identifier

/-- **The bytes of a code unit.** -/
def load (loader : CodeLoader) (files : FileTree) (identifier : String) :
    Except FileError (List UInt8) :=
  files.read (loader.resolve files identifier.toList)

end CodeLoader

end ControlPlane
