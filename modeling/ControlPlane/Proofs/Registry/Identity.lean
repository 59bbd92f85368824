import Mathlib
import ControlPlane.Resource.Locator
import ControlPlane.Proofs.Gateway.Paths
import ControlPlane.Proofs.Json.Sources
import ControlPlane.Proofs.Registry.Resources

/-!
# What a digest identifies

The digest of a resource is taken of the bytes that are sent along, or of the bytes of the URL that stands
for them.  It does not tell the two apart: as long as the hash has no collision, resources of one name, kind
and digest are equal, or one of them is a URL and the other has the text of this URL for its bytes.

* `Payload.content` — what the digest is taken of; `Resource.Built` — the resources that are built, and not
  decoded.
* `Resource.Disguises` — a URL, and its text.
* `Resource.Built.sameContent_iff` — what the comparison of resources finds.
-/

namespace ControlPlane

/-! ## Messages -/

/-- **A collision**: two messages with one digest. -/
def Sha256.Collide (x y : List UInt8) : Prop := x ≠ y ∧ digest x = digest y

lemma Sha256.digest_of_hexDigest {x y : List UInt8} (same : hexDigest x = hexDigest y) :
    digest x = digest y := by
  have text : Hex.encode (digest x) = Hex.encode (digest y) := String.ofList_injective same
  have read := congrArg Hex.decode text
  rwa [Hex.decode_encode, Hex.decode_encode, Option.some_inj] at read

/-- Texts of the same bytes are equal. -/
lemma toUTF8_injective {s t : String} (same : s.toUTF8.toList = t.toUTF8.toList) : s = t := by
  rw [Http.toList_eq_data, Http.toList_eq_data] at same
  exact String.toByteArray_inj.mp (ByteArray.ext (Array.toList_inj.mp same))

namespace Payload

/-- **What the digest is taken of**: the bytes that are sent along, or those of the URL. -/
def content : Payload → List UInt8
  | inline bytes => bytes
  | remote url => url.toUTF8.toList

/-- Payloads of one content are equal, or one is a URL and the other its text. -/
lemma content_eq_iff {p q : Payload} :
    p.content = q.content ↔ p = q ∨ ∃ url : String,
      p = .remote url ∧ q = .inline url.toUTF8.toList ∨ p = .inline url.toUTF8.toList ∧ q = .remote url := by
  constructor
  · intro same
    cases p with
    | inline x =>
        cases q with
        | inline y => exact .inl (congrArg inline same)
        | remote url => exact .inr ⟨url, .inr ⟨congrArg inline same, rfl⟩⟩
    | remote url =>
        cases q with
        | inline y => exact .inr ⟨url, .inl ⟨rfl, congrArg inline same.symm⟩⟩
        | remote other => exact .inl (congrArg remote (toUTF8_injective same))
  · rintro (rfl | ⟨url, ⟨rfl, rfl⟩ | ⟨rfl, rfl⟩⟩) <;> rfl

end Payload

/-! ## Resources -/

namespace Resource

/-- **A resource that has been built**, of bytes at hand or of what is found at a locator. -/
inductive Built (r : Resource) : Prop where
  | inline {name : String} {kind : ResourceKind} {bytes : List UInt8}
      (made : Resource.inline name kind bytes = .ok r)
  | located {files : FileTree} {locator : String} {name : Option String} {kind : ResourceKind}
      (made : fromLocator files locator name kind = .ok r)

/-- **One resource looks like the other**: they share name and kind, one is a URL, and the other has the text
of this URL for its bytes. -/
def Disguises (a b : Resource) : Prop :=
  a.name = b.name ∧ a.kind = b.kind ∧ ∃ url : String,
    a.payload = .remote url ∧ b.payload = .inline url.toUTF8.toList
      ∨ a.payload = .inline url.toUTF8.toList ∧ b.payload = .remote url

/-- **Proper names**, character by character. -/
lemma isName_iff {name : String} :
    isName name = true ↔ name ≠ "" ∧ ∀ c ∈ name.toList,
      c ≠ '/' ∧ c ≠ '\\' ∧ c ≠ ':' ∧ isControl c = false := by
  simp [isName, and_assoc]

lemma sameContent_eq_true {a b : Resource} :
    a.sameContent b = true ↔ a.name = b.name ∧ a.kind = b.kind ∧ a.digest = b.digest := by
  simp [sameContent, and_assoc]

lemma sealed_of_inline {name : String} {kind : ResourceKind} {bytes : List UInt8} {r : Resource}
    (made : Resource.inline name kind bytes = .ok r) :
    isName r.name = true ∧ r.digest = Sha256.hexDigest r.payload.content := by
  unfold Resource.inline at made
  split_ifs at made with proper
  obtain rfl := Except.ok.inj made
  exact ⟨proper, rfl⟩

lemma sealed_of_remote {name : String} {kind : ResourceKind} {url : String} {r : Resource}
    (made : Resource.remote name kind url = .ok r) :
    isName r.name = true ∧ r.digest = Sha256.hexDigest r.payload.content := by
  unfold Resource.remote at made
  split_ifs at made with proper
  obtain rfl := Except.ok.inj made
  exact ⟨proper, rfl⟩

namespace Built

variable {a b : Resource}

/-- A resource that has been built has a proper name, and the digest of its content. -/
lemma sealed (h : a.Built) : isName a.name = true ∧ a.digest = Sha256.hexDigest a.payload.content := by
  cases h with
  | inline made => exact sealed_of_inline made
  | located made =>
      obtain ⟨found, -, made⟩ := Except.bind_eq_ok_iff.mp made
      cases found with
      | file path =>
          simp only at made
          split at made
          · exact sealed_of_inline made
          · simp [throw, throwThe, MonadExceptOf.throw] at made
      | remote url => exact sealed_of_remote made

/-- **Built resources count as one** when they have the same content, or else their contents collide. -/
lemma sameContent_iff_content (h : a.Built) (h' : b.Built)
    (apart : ¬Sha256.Collide a.payload.content b.payload.content) :
    a.sameContent b = true ↔ a.name = b.name ∧ a.kind = b.kind ∧ a.payload.content = b.payload.content := by
  rw [sameContent_eq_true, h.sealed.2, h'.sealed.2]
  refine and_congr_right fun _ => and_congr_right fun _ => ⟨fun same => ?_, fun same => by rw [same]⟩
  by_contra different
  exact apart ⟨different, Sha256.digest_of_hexDigest same⟩

end Built

/-- **What the comparison finds**: equal resources, and a URL and its text. -/
theorem Built.sameContent_iff {a b : Resource} (h : a.Built) (h' : b.Built)
    (apart : ¬Sha256.Collide a.payload.content b.payload.content) :
    a.sameContent b = true ↔ a = b ∨ a.Disguises b := by
  rw [h.sameContent_iff_content h' apart, Payload.content_eq_iff]
  constructor
  · rintro ⟨name, kind, same | guise⟩
    · left
      have digest : a.digest = b.digest := by rw [h.sealed.2, h'.sealed.2, same]
      cases a
      cases b
      simp_all
    · exact .inr ⟨name, kind, guise⟩
  · rintro (rfl | ⟨name, kind, guise⟩)
    · exact ⟨rfl, rfl, .inl rfl⟩
    · exact ⟨name, kind, .inr guise⟩

end Resource

end ControlPlane
