import ControlPlane.Digest.Sha256
import ControlPlane.FileTree.Basic
import ControlPlane.Json.Decoder

/-!
# Resources

A resource is an artifact that a job ships to the cluster: a code unit, an archive or data.  Its
bytes are sent along, or a URL is, from which the cluster fetches them.  The digest of the bytes or
of the URL is the identity of the content: it tells a resource that is registered again from one
that takes the name of another.

* `Resource.inline`, `Resource.remote` — the two ways to build a resource.
* `Resource.sameContent` — whether two resources count as one.
-/

namespace ControlPlane

/-! ## Failures -/

/-- Why a resource could not be located, read or registered. -/
inductive ResourceError where
  | unreadable (locator : String) (cause : FileError)
  | unsupportedLocator (locator : String)
  | invalidName (name : String)
  | conflict (name : String)
  deriving DecidableEq, Repr

/-- The message of a failure. -/
def ResourceError.message : ResourceError → String
  | .unreadable locator cause => s!"cannot read '{locator}': {cause.message}"
  | .unsupportedLocator locator => s!"unsupported resource locator: {locator}"
  | .invalidName name => s!"invalid resource name '{name}'"
  | .conflict name => s!"resource '{name}' is already registered with different content"

/-! ## Kinds and payloads -/

/-- What a resource is used for on the cluster. -/
inductive ResourceKind where
  /-- A single code unit that can be loaded. -/
  | code
  /-- A packaged set of code units. -/
  | archive
  /-- Data that the job reads. -/
  | data
  deriving DecidableEq, Repr, Inhabited

/-- The name of a kind. -/
def ResourceKind.name : ResourceKind → String
  | .code => "code"
  | .archive => "archive"
  | .data => "data"

def ResourceKind.all : List ResourceKind := [.code, .archive, .data]

/-- Reads the name of a kind. -/
def ResourceKind.decoder : Json.Decoder ResourceKind := .choice (all.map fun k => (k.name, k))

/-- What is sent: the bytes, or the URL that the cluster fetches. -/
inductive Payload where
  | inline (bytes : List UInt8)
  | remote (url : String)
  deriving DecidableEq, Repr

namespace Payload

/-- Bytes travel as hexadecimal text. -/
def toJson : Payload → Json.Value
  | inline bytes =>
    .object [("type", .string "inline"), ("value", .string (String.ofList (Hex.encode bytes)))]
  | remote url => .object [("type", .string "remote"), ("value", .string url)]

/-- Reads a payload. -/
def decoder : Json.Decoder Payload :=
  .tagged "type" "value"
    [("inline", .parsed fun s => (Hex.decode s.toList).map inline),
      ("remote", .parsed fun s => some (remote s))]

end Payload

/-! ## Resources -/

/-- A named artifact with its identity. -/
structure Resource where
  name : String
  kind : ResourceKind
  payload : Payload
  digest : String
  deriving DecidableEq, Repr

namespace Resource

/-- **Names of resources** are not empty and hold neither a separator of paths or keys nor a
control character. -/
def isName (name : String) : Bool :=
  !name.isEmpty && name.toList.all fun c => c ≠ '/' && c ≠ '\\' && c ≠ ':' && !isControl c

/-- A resource of bytes that are at hand. -/
def inline (name : String) (kind : ResourceKind) (bytes : List UInt8) :
    Except ResourceError Resource :=
  if isName name then .ok ⟨name, kind, .inline bytes, Sha256.hexDigest bytes⟩
  else .error (.invalidName name)

/-- A resource that the cluster fetches. -/
def remote (name : String) (kind : ResourceKind) (url : String) : Except ResourceError Resource :=
  if isName name then .ok ⟨name, kind, .remote url, Sha256.hexDigest url.toUTF8.toList⟩
  else .error (.invalidName name)

/-- The number of bytes sent along. -/
def size (r : Resource) : Nat :=
  match r.payload with
  | .inline bytes => bytes.length
  | .remote _ => 0

/-- **Identity of content**: name, kind and digest agree. -/
def sameContent (a b : Resource) : Bool :=
  a.name = b.name && a.kind = b.kind && a.digest = b.digest

def toJson (r : Resource) : Json.Value :=
  .object [("name", .string r.name), ("kind", .string r.kind.name), ("payload", r.payload.toJson),
    ("digest", .string r.digest)]

open Json Decoder in
/-- Reads a resource.  Neither the name nor the digest is checked. -/
def decoder : Decoder Resource := fun depth t => do
  let f ← record [("name", check string), ("kind", check ResourceKind.decoder),
    ("payload", check Payload.decoder), ("digest", check string)] depth t
  return { name := ← f.required "name" string
           kind := ← f.required "kind" ResourceKind.decoder
           payload := ← f.required "payload" Payload.decoder
           digest := ← f.required "digest" string }

end Resource

end ControlPlane
