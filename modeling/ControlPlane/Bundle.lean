import ControlPlane.Resource.CodeLoader
import ControlPlane.Resource.Locator

/-!
# Bundles

The resources that a job will deploy, by name.  A resource that is added again is left alone, one
that takes the name of another is refused, and once the bundle is frozen nothing is added.

* `Bundle.add`, `Bundle.addAll` — one resource, and several of which all are added or none.
* `Bundle.addCode`, `addCodeBytes`, `addLocated` — resources found or built on the way.
* `Bundle.freeze`, `thaw`, `clear`.
-/

namespace ControlPlane

/-- The resources of a job that is being prepared. -/
structure Bundle where
  resources : Table Resource
  frozen : Bool
  deriving DecidableEq

/-- Why nothing was added to a bundle. -/
inductive BundleError where
  | frozen
  | resource (e : ResourceError)
  deriving DecidableEq, Repr

namespace Bundle

/-- The bundle of a new job. -/
def empty : Bundle := ⟨.empty, false⟩

instance : Inhabited Bundle := ⟨empty⟩

/-! ## Adding -/

/-- Whether a resource is new beside others; `false` when it is there already. -/
def isNew (resources : Table Resource) (r : Resource) : Except BundleError Bool :=
  match resources.find? r.name with
  | none => .ok true
  | some existing =>
    if existing.sameContent r then .ok false else .error (.resource (.conflict r.name))

/-- **Adds one resource**; answers whether it was new. -/
def add (b : Bundle) (r : Resource) : Except BundleError (Bool × Bundle) := do
  if b.frozen then throw .frozen
  if ← isNew b.resources r then
    return (true, { b with resources := b.resources.insert r.name r })
  return (false, b)

/-- The new ones among resources that are to be added together. -/
def freshAmong (present : Table Resource) (fresh : Table Resource) :
    List Resource → Except BundleError (Table Resource)
  | [] => .ok fresh
  | r :: rest => do
    if ← isNew present r then
      if ← isNew fresh r then freshAmong present (fresh.insert r.name r) rest
      else freshAmong present fresh rest
    else freshAmong present fresh rest

/-- **Adds several resources**, all of them or none; answers how many were new. -/
def addAll (b : Bundle) (rs : List Resource) : Except BundleError (Nat × Bundle) := do
  if b.frozen then throw .frozen
  let fresh ← freshAmong b.resources .empty rs
  return (fresh.size, { b with resources := b.resources.insertMany fresh.entries })

/-! ## Finding and adding -/

/-- The failures of resources are failures of bundles. -/
def located (r : Except ResourceError α) : Except BundleError α := r.mapError .resource

/-- Loads a code unit under its identifier. -/
def loadCode (loader : CodeLoader) (files : FileTree) (identifier : String) :
    Except ResourceError Resource :=
  match loader.load files identifier with
  | .ok bytes => Resource.inline identifier .code bytes
  | .error e => .error (.unreadable identifier e)

/-- **Adds code units by identifier.**  All are loaded before any is added. -/
def addCode (b : Bundle) (loader : CodeLoader) (files : FileTree) (identifiers : List String) :
    Except BundleError (Nat × Bundle) := do
  if b.frozen then throw .frozen
  let loaded ← located (identifiers.mapM (loadCode loader files))
  b.addAll loaded

/-- Adds a code unit whose bytes are at hand. -/
def addCodeBytes (b : Bundle) (identifier : String) (bytes : List UInt8) :
    Except BundleError (Bool × Bundle) := do
  if b.frozen then throw .frozen
  b.add (← located (Resource.inline identifier .code bytes))

/-- Adds the resource at a locator. -/
def addLocated (b : Bundle) (files : FileTree) (locator : String) (name : Option String)
    (kind : ResourceKind) : Except BundleError (Bool × Bundle) := do
  if b.frozen then throw .frozen
  b.add (← located (Resource.fromLocator files locator name kind))

/-! ## Freezing -/

/-- From now on nothing is added. -/
def freeze (b : Bundle) : Bundle := { b with frozen := true }

/-- Adding is possible again. -/
def thaw (b : Bundle) : Bundle := { b with frozen := false }

/-- Drops all resources; a frozen bundle stays frozen. -/
def clear (b : Bundle) : Bundle := { b with resources := .empty }

/-! ## Looking -/

/-- The resource under a name. -/
def find? (b : Bundle) (name : String) : Option Resource := b.resources.find? name

/-- The resources in order of their names. -/
def toList (b : Bundle) : List Resource := b.resources.values

/-- The number of resources. -/
def size (b : Bundle) : Nat := b.resources.size

end Bundle

end ControlPlane
