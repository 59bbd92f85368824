import ControlPlane.Resource.Basic

/-!
# Locators

A locator says where the bytes of a resource are: in a file, or behind a URL.

* `Locator.parse` — the locator that a text denotes.
* `Resource.fromLocator` — the resource that is found there.
-/

namespace ControlPlane

/-- Where the bytes of a resource are. -/
inductive Locator where
  /-- In the file at a path. -/
  | file (path : List Char)
  /-- Behind a URL, to be fetched by the cluster. -/
  | remote (url : List Char)
  deriving DecidableEq, Repr

namespace Locator

/-- **The locator that a text denotes**, blanks at its ends aside: `file://` before a path, an
`http` or `https` URL, or a path alone.  Other schemes are not supported. -/
def parse (text : String) : Except ResourceError Locator :=
  let s := trimBlank text.toList
  if s.isEmpty then .error (.unsupportedLocator "")
  else match dropStart? "file://".toList s with
    | some path => .ok (.file path)
    | none =>
      if "https://".toList.isPrefixOf s || "http://".toList.isPrefixOf s then .ok (.remote s)
      else match splitOnce "://".toList s with
        | some (scheme, _) =>
          .error (.unsupportedLocator
            (String.ofList s ++ " (scheme '" ++ String.ofList scheme ++ "')"))
        | none => .ok (.file s)

/-- The name at the end of a locator; that of a URL stands before any query or fragment. -/
def fileName : Locator → List Char
  | .file path => Path.fileName path
  | .remote url =>
    ((url.takeWhile fun c => c ≠ '?' && c ≠ '#').reverse.takeWhile (· ≠ '/')).reverse

end Locator

/-- **The resource at a locator**, under the given name or the one at the locator's end.  A file is
read at once, before the name is looked at. -/
def Resource.fromLocator (files : FileTree) (locator : String) (name : Option String)
    (kind : ResourceKind) : Except ResourceError Resource := do
  let found ← Locator.parse locator
  let name := name.getD (String.ofList found.fileName)
  match found with
  | .file path =>
    match files.read path with
    | .ok bytes => Resource.inline name kind bytes
    | .error e => throw (.unreadable (String.ofList path) e)
  | .remote url => Resource.remote name kind (String.ofList url)

end ControlPlane
