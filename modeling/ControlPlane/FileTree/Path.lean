import ControlPlane.Text.Blank

/-!
# Paths

A path is a text of pieces between slashes.  A path that begins with a slash is absolute.  An
empty piece and a piece `.` stand for the place reached so far, and `..` for the place above it.

* `push`, `ofPieces` — paths put together.
* `fileName` — the last piece that names something.
-/

namespace ControlPlane.Path

/-- Whether a path starts at the root. -/
def isAbsolute (path : List Char) : Bool := path.head? = some '/'

/-- **A path continued by another**: an absolute path takes the place of what stood before it, and
a slash is put between the two where none stands. -/
def push (path more : List Char) : List Char :=
  if isAbsolute more then more
  else if path.isEmpty || path.getLast? = some '/' then path ++ more
  else path ++ '/' :: more

/-- A path from pieces, each continuing what the ones before it made. -/
def ofPieces (parts : List (List Char)) : List Char := parts.foldl push []

/-- The pieces of a path, empty ones included. -/
def split (path : List Char) : List (List Char) := pieces (· = '/') path

/-- **The name at the end of a path**: its last piece that is neither empty nor `.`, unless that
is `..`. -/
def fileName (path : List Char) : List Char :=
  match ((split path).filter fun p => !p.isEmpty && p ≠ ['.']).getLast? with
  | some name => if name = ['.', '.'] then [] else name
  | none => []

end ControlPlane.Path
