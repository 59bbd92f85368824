import ControlPlane.Text.Blank

/-!
# Media types

The type, the subtype and the suffix of a subtype, as in `application/problem+json`, with
parameters after them that do not count here beyond their form.

* `MediaType.parse?` — the media type that a text names.
* `MediaType.isJson` — whether it is one of JSON texts.
-/

namespace ControlPlane.Http

/-- A media type, in lower case. -/
structure MediaType where
  main : List Char
  sub : List Char
  suffix : Option (List Char)
  deriving DecidableEq, Repr

namespace MediaType

/-- The characters of names. -/
def isToken (c : Char) : Bool :=
  ('a' ≤ c && c ≤ 'z') || ('A' ≤ c && c ≤ 'Z') || ('0' ≤ c && c ≤ '9')
    || ['!', '#', '$', '%', '&', '\x27', '+', '-', '.', '^', '_', '\x60', '|', '~'].contains c

/-- Characters that may stand in a quoted value. -/
def isQuotable (c : Char) : Bool := c = '\t' || (0x20 ≤ c.toNat && c.toNat ≠ 0x7F && c ≠ '"')

/-- Whether a text is a name, an equals sign and a value. -/
def isParameter (s : List Char) : Bool :=
  match splitOnce ['='] s with
  | some (name, value) =>
    !name.isEmpty && name.all isToken
      && match value with
        | '"' :: inner =>
          inner.getLast? = some '"' && inner.dropLast.all isQuotable && !inner.dropLast.isEmpty
        | _ => value.all isToken
  | none => false

/-- Whether the pieces after semicolons are parameters; blanks may stand before each, and nothing
may stand after the last semicolon. -/
def areParameters : List (List Char) → Bool
  | [] => true
  | [last] => let p := last.dropWhile (· = ' '); p.isEmpty || isParameter p
  | p :: rest => isParameter (p.dropWhile (· = ' ')) && areParameters rest

/-- A subtype and its suffix, which stands behind the last plus sign that does not come first. -/
def splitSuffix (s : List Char) : List Char × Option (List Char) :=
  match splitLast '+' s with
  | some ([], _) => (s, none)
  | some (before, after) => (before, some after)
  | none => (s, none)

/-- **The media type that a text names.** -/
def parse? (text : String) : Option MediaType :=
  match pieces (· = ';') text.toList with
  | [] => none
  | name :: parameters =>
    match splitOnce ['/'] name with
    | none => none
    | some (main, sub) =>
      if main.isEmpty || !main.all isToken || !sub.all isToken
          || (sub.isEmpty && !parameters.isEmpty) || !areParameters parameters then none
      else
        let (sub, suffix) := splitSuffix (sub.map Char.toLower)
        some ⟨main.map Char.toLower, sub, suffix⟩

/-- **Whether a media type is one of JSON texts.** -/
def isJson (m : MediaType) : Bool :=
  m.main = "application".toList && (m.sub = "json".toList || m.suffix = some "json".toList)

end MediaType

end ControlPlane.Http
