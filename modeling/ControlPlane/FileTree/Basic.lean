import ControlPlane.FileTree.Path

/-!
# File trees

A tree of directories and files without links, in which some directory is the working directory.
Paths are looked up in it as an operating system does, with the failures that go with that.

* `FileTree.locate` — what a path leads to.
* `FileTree.read`, `readText`, `isFile` — reading.
* `FileTree.write`, `makeDirectories` — the changes that programs make.
-/

namespace ControlPlane

/-! ## Failures -/

/-- Why a file could not be read or written. -/
inductive FileError where
  | notFound
  | notDirectory
  | isDirectory
  | nameTooLong
  | alreadyExists
  | nulInPath
  | notUtf8
  | other (text : String)
  deriving DecidableEq, Repr

/-- The message of a failure. -/
def FileError.message : FileError → String
  | .notFound => "No such file or directory (os error 2)"
  | .notDirectory => "Not a directory (os error 20)"
  | .isDirectory => "Is a directory (os error 21)"
  | .nameTooLong => "File name too long (os error 36)"
  | .alreadyExists => "File exists (os error 17)"
  | .nulInPath => "file name contained an unexpected NUL byte"
  | .notUtf8 => "stream did not contain valid UTF-8"
  | .other text => text

/-! ## Trees -/

/-- A place: the names on the way to it from the root. -/
abbrev Place := List String

/-- A tree of directories and files.  The root is a directory, and so is every place above a
directory or file. -/
structure FileTree where
  files : List (Place × List UInt8)
  directories : List Place
  /-- The working directory. -/
  home : Place

/-- What stands at a place. -/
inductive Node where
  | file (bytes : List UInt8)
  | directory
  deriving DecidableEq, Repr

namespace FileTree

/-- Whether a place is a directory. -/
def isDirectory (t : FileTree) (place : Place) : Bool :=
  place.isEmpty || place.isPrefixOf t.home || t.directories.any place.isPrefixOf
    || t.files.any fun f => place.isPrefixOf f.1 && place.length < f.1.length

/-- What stands at a place, if anything does. -/
def node? (t : FileTree) (place : Place) : Option Node :=
  match t.files.lookup place with
  | some bytes => some (.file bytes)
  | none => if t.isDirectory place then some .directory else none

/-- The usual directories below the root of a system. -/
def systemDirectories : List Place :=
  ["bin", "dev", "etc", "home", "lib", "opt", "proc", "root", "run", "sys", "tmp", "usr", "var"].map
    fun name => [name]

/-- The place of a path below another place. -/
def placeBelow (home : Place) (path : String) : Place :=
  home ++ ((Path.split path.toList).filter fun piece => !piece.isEmpty).map String.ofList

/-- **A tree as programs find it**: the usual directories, and a working directory with some files
and directories, given by their paths in it. -/
def workspace (files : List (String × List UInt8)) (directories : List String) : FileTree :=
  let home := ["tmp", "work"]
  ⟨files.map fun f => (placeBelow home f.1, f.2),
    directories.map (placeBelow home) ++ systemDirectories, home⟩

/-! ## Following a path -/

/-- The longest name of a file, in bytes. -/
def maxNameLength : Nat := 255

/-- The longest path, in bytes. -/
def maxPathLength : Nat := 4095

/-- One piece of a path followed from a directory. -/
def step (t : FileTree) (place : Place) (piece : List Char) : Except FileError (Place × Node) :=
  if piece.isEmpty || piece = ['.'] then .ok (place, .directory)
  else if piece = ['.', '.'] then .ok (place.dropLast, .directory)
  else
    let name := String.ofList piece
    if maxNameLength < name.utf8ByteSize then .error .nameTooLong
    else match t.node? (place ++ [name]) with
      | some node => .ok (place ++ [name], node)
      | none => .error .notFound

/-- Pieces followed one after the other.  Only a directory has something below it. -/
def follow (t : FileTree) (place : Place) (node : Node) :
    List (List Char) → Except FileError (Place × Node)
  | [] => .ok (place, node)
  | piece :: rest =>
    match node with
    | .file _ => .error .notDirectory
    | .directory => do
      let (place, node) ← t.step place piece
      t.follow place node rest

/-- **What a path leads to**, from the root or from the working directory. -/
def locate (t : FileTree) (path : List Char) : Except FileError (Place × Node) :=
  if path.any (·.toNat = 0) then .error .nulInPath
  else if path.isEmpty then .error .notFound
  else if maxPathLength < (String.ofList path).utf8ByteSize then .error .nameTooLong
  else t.follow (if Path.isAbsolute path then [] else t.home) .directory (Path.split path)

/-! ## Reading -/

/-- **The bytes of a file.** -/
def read (t : FileTree) (path : List Char) : Except FileError (List UInt8) :=
  match t.locate path with
  | .ok (_, .file bytes) => .ok bytes
  | .ok (_, .directory) => .error .isDirectory
  | .error e => .error e

/-- Whether a path leads to a file. -/
def isFile (t : FileTree) (path : List Char) : Bool :=
  match t.locate path with
  | .ok (_, .file _) => true
  | _ => false

/-- Whether a path leads to anything. -/
def pathExists (t : FileTree) (path : List Char) : Bool :=
  match t.locate path with
  | .ok _ => true
  | _ => false

/-- The text of a file. -/
def readText (t : FileTree) (path : List Char) : Except FileError String := do
  match String.fromUTF8? ⟨(← t.read path).toArray⟩ with
  | some text => return text
  | none => throw .notUtf8

/-! ## Writing -/

/-- The directory part of a path, and the piece after its last slash. -/
def parent (path : List Char) : List Char × List Char :=
  match splitLast '/' path with
  | some (before, name) => (before ++ ['/'], name)
  | none => (['.'], path)

/-- The tree with bytes at a place. -/
def put (t : FileTree) (place : Place) (bytes : List UInt8) : FileTree :=
  { t with files := (place, bytes) :: t.files.filter fun f => f.1 != place }

/-- **Writes a file**, in place of one that stands there; its directory has to exist. -/
def write (t : FileTree) (path : List Char) (bytes : List UInt8) : Except FileError FileTree :=
  match t.locate path with
  | .ok (place, .file _) => .ok (t.put place bytes)
  | .ok (_, .directory) => .error .isDirectory
  | .error .notFound =>
    let (directory, name) := parent path
    if name.isEmpty || name = ['.'] || name = ['.', '.'] then
      .error (if pathExists t directory then .isDirectory else .notFound)
    else match t.locate directory with
      | .ok (place, .directory) => .ok (t.put (place ++ [String.ofList name]) bytes)
      | .ok (_, .file _) => .error .notDirectory
      | .error e => .error e
  | .error e => .error e

/-- One directory made below another, unless it is there. -/
def makeStep (t : FileTree) (place : Place) (piece : List Char) :
    Except FileError (FileTree × Place) :=
  match t.step place piece with
  | .ok (place, .directory) => .ok (t, place)
  | .ok (_, .file _) => .error .alreadyExists
  | .error .notFound =>
    let below := place ++ [String.ofList piece]
    .ok ({ t with directories := below :: t.directories }, below)
  | .error e => .error e

/-- Directories made one below the other.  A file in the way of the last one is there already; one
in the way of another is no directory. -/
def makeAll (t : FileTree) (place : Place) : List (List Char) → Except FileError FileTree
  | [] => .ok t
  | piece :: rest =>
    match t.makeStep place piece with
    | .ok (t, place) => t.makeAll place rest
    | .error .alreadyExists =>
      .error (if rest.all fun p => p.isEmpty || p = ['.'] then .alreadyExists else .notDirectory)
    | .error e => .error e

/-- **Makes a directory and all that are missing above it.** -/
def makeDirectories (t : FileTree) (path : List Char) : Except FileError FileTree :=
  if path.any (·.toNat = 0) then .error .nulInPath
  else t.makeAll (if Path.isAbsolute path then [] else t.home) (Path.split path)

end FileTree

end ControlPlane
