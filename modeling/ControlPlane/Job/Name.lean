/-!
# Job names

A job is known by its name everywhere: it is a key of the registry and a segment of a path.  So a
name is short and made of few characters, none of which separates keys or segments.
-/

namespace ControlPlane.Job

/-- The longest name, in bytes. -/
def maxNameLength : Nat := 128

/-- The characters of names: ASCII letters and digits, point, underscore and hyphen. -/
def isNameChar (c : Char) : Bool :=
  ('a' ≤ c && c ≤ 'z') || ('A' ≤ c && c ≤ 'Z') || ('0' ≤ c && c ≤ '9')
    || c = '.' || c = '_' || c = '-'

/-- **A job name**: from one to `maxNameLength` of these characters. -/
def isName (name : String) : Bool :=
  !name.isEmpty && name.utf8ByteSize ≤ maxNameLength && name.toList.all isNameChar

/-- The message about a text that is no job name. -/
def invalidName (name : String) : String :=
  s!"invalid job name '{name}': expected 1-128 characters from [A-Za-z0-9._-]"

end ControlPlane.Job
