import ControlPlane.Command.Program

/-!
# The client's program

Reads the files that a command may need, carries the command out on them, and writes the files that
it leaves.  This program is not linked to a network, and so a cluster behind an address is out of
its reach.
-/

open ControlPlane ControlPlane.Command

/-- The paths that a command may look at. -/
def pathsOf : Request → List (List Char)
  | .submit a =>
    let loader : CodeLoader := ⟨a.codeRoot.toList⟩
    let located := (a.archives ++ a.data).filterMap fun locator =>
      match Locator.parse locator with
      | .ok (.file path) => some path
      | _ => none
    [a.config.toList, a.graph.toList] ++ located
      ++ a.code.flatMap fun id => [loader.nested id.toList, loader.flat id.toList]
  | .scaffold a => [a.target]

/-- The place to which a path leads, read as it is written. -/
def placeOf (home : Place) (path : List Char) : Place :=
  (Path.split path).foldl
    (fun place piece =>
      if piece.isEmpty || piece = ['.'] then place
      else if piece = ['.', '.'] then place.dropLast
      else place ++ [String.ofList piece])
    (if Path.isAbsolute path then [] else home)

/-- The text of a place. -/
def textOf (place : Place) : String := "/" ++ "/".intercalate place

/-- The files among some paths. -/
def snapshot (home : Place) (paths : List (List Char)) : IO FileTree := do
  let mut files := []
  for path in paths do
    let place := placeOf home path
    try
      let bytes ← IO.FS.readBinFile (textOf place)
      files := (place, bytes.toList) :: files
    catch _ => pure ()
  return ⟨files, [], home⟩

/-- Writes the files that were not there before. -/
def writeNew (old new : FileTree) : IO Unit := do
  for (place, bytes) in new.files do
    if (old.files.lookup place).isNone then
      IO.FS.createDirAll (textOf place.dropLast)
      IO.FS.writeBinFile (textOf place) ⟨bytes.toArray⟩

def main (arguments : List String) : IO UInt32 := do
  let home := placeOf [] (← IO.currentDir).toString.toList
  let files ← match Request.ofArguments arguments with
    | .run r => snapshot home (pathsOf r)
    | _ => pure ⟨[], [], home⟩
  let seconds := (← IO.monoMsNow) / 1000
  let result := runProgram arguments files .unreachable seconds
  writeNew files result.files
  IO.print result.output
  match result.error with
  | some message => IO.eprintln s!"Error: {message}"
  | none => pure ()
  return UInt32.ofNat result.exitCode
