import Mathlib
import ControlPlane.Proofs.Registry.Counters
import ControlPlane.Proofs.Registry.Keys

/-!
# Resources come back from the store

A resource is written with its bytes as hexadecimal text, and every resource comes back.  So what is
listed of a job is what the rows have been made of that are found under the keys of the job.

* `Hex.decode_encode` — bytes come back from their text.
* `Row.decode_resource` — resources come back from their rows.
* `Store.Labelled` — every row of a resource is the one under its own key.
* `Store.Labelled.getResource_of_listed` — what is listed of a job can be got by its name.
-/

namespace ControlPlane

/-! ## Bytes -/

namespace Hex

lemma value?_digit : ∀ n < 16, value? (digit n) = some n := by decide

/-- **Bytes come back from their text.** -/
theorem decode_encode (bytes : List UInt8) : decode (encode bytes) = some bytes := by
  induction bytes with
  | nil => rfl
  | cons b rest ih =>
      have bound := b.toNat_lt
      have high := value?_digit (b.toNat / 16) (by omega)
      have low := value?_digit (b.toNat % 16) (by omega)
      have whole : 16 * (b.toNat / 16) + b.toNat % 16 = b.toNat := Nat.div_add_mod b.toNat 16
      rw [encode, List.flatMap_cons, ofByte, List.cons_append, List.cons_append, List.nil_append,
        decode, high, low, ← encode, ih]
      show some (UInt8.ofNat (16 * (b.toNat / 16) + b.toNat % 16) :: rest) = some (b :: rest)
      rw [whole, UInt8.ofNat_toNat]

end Hex

/-! ## Resources -/

lemma ResourceKind.decoder_tree (k : ResourceKind) (depth : ℕ) :
    ResourceKind.decoder depth (Json.Value.string k.name).tree = .ok k := by
  cases k <;> rfl

lemma Payload.decoder_tree (p : Payload) (depth : ℕ) :
    Payload.decoder (depth + 2) p.toJson.tree = .ok p := by
  cases p <;>
    simp [toJson, Json.Value.tree, Json.memberTrees, decoder, Json.Decoder.tagged, Json.enter,
      Json.Decoder.taggedMembers, Json.Decoder.choice, Json.Decoder.named, Json.Decoder.parsed,
      Json.Decoder.string, Json.Ending.strict, Hex.decode_encode, List.lookup, bind, Except.bind, pure,
      Except.pure]

namespace Resource

lemma decoder_tree (r : Resource) (depth : ℕ) : Resource.decoder (depth + 3) r.toJson.tree = .ok r := by
  obtain ⟨name, kind, payload, digest⟩ := r
  have kindTree := ResourceKind.decoder_tree kind (depth + 2)
  have payloadTree := Payload.decoder_tree payload depth
  rw [toJson, Json.Value.tree, decoder]
  simp only [Json.memberTrees, Json.Decoder.record, Json.enter]
  simp only [Json.Value.tree] at kindTree
  simp [Json.Decoder.recordMembers, Json.Decoder.check, Json.Decoder.string, kindTree, payloadTree,
    bind, Except.bind, pure, Except.pure, List.lookup, Json.Ending.strict,
    Json.Decoder.Fields.required, Json.Value.tree]

lemma allNumbers (r : Resource) : r.toJson.AllNumbers Json.Number.Stands := by
  refine ⟨trivial, trivial, ?_, trivial, trivial⟩
  cases r.payload <;> exact ⟨trivial, trivial, trivial⟩

end Resource

/-- **Resources survive the store.** -/
theorem Row.decode_resource (r : Resource) : decode Resource.decoder (.of r.toJson) = .ok r := by
  rw [decode_of r.allNumbers, show Json.maxDepth + 1 = 125 + 3 from rfl, r.decoder_tree]
  rfl

/-! ## What is listed -/

/-- Each result of a computation for each item of a list is the one for an item. -/
lemma List.exists_of_mem_mapM {α β ε : Type} {f : α → Except ε β} {items : List α}
    {results : List β} (all : items.mapM f = .ok results) {b : β} (member : b ∈ results) :
    ∃ a ∈ items, f a = .ok b := by
  have pairs := List.mapM_eq_ok_iff.mp all
  clear all
  induction pairs with
  | nil => simp at member
  | @cons a c rest others first later ih =>
      rcases List.mem_cons.mp member with rfl | member
      · exact ⟨a, List.mem_cons_self, first⟩
      · obtain ⟨o, there, same⟩ := ih member
        exact ⟨o, List.mem_cons_of_mem a there, same⟩

/-- What is found after insertions was there before, or has been inserted. -/
lemma Table.find?_of_insertMany {α : Type} {t : Table α} {pairs : List (String × α)} {name : String}
    {value : α} (found : (t.insertMany pairs).find? name = some value) :
    t.find? name = some value ∨ (name, value) ∈ pairs := by
  unfold insertMany at found
  induction pairs generalizing t with
  | nil => exact .inl found
  | cons p rest ih =>
      rcases ih found with before | member
      · rw [find?_insert] at before
        split_ifs at before with here
        · obtain rfl := Option.some.inj before
          exact .inr (here ▸ List.mem_cons_self)
        · exact .inl before
      · exact .inr (List.mem_cons_of_mem p member)

namespace Store

/-- Nothing is listed of a job that has been purged. -/
lemma listResources_purge (s : Store) (job : String) : (s.purge job).2.listResources job = .ok [] := by
  have none_left : ((s.purge job).2.resources.filter (isOwned job)) = .empty := by
    refine Table.ext_find? fun key => ?_
    rw [purge, Table.find?_filter, Table.find?_filter]
    split_ifs with owned kept
    · simp [owned] at kept
    · rfl
    · rfl
  rw [listResources, none_left]
  rfl

/-- **Every row of a resource** is the one under the key of its job and its name. -/
def Labelled (s : Store) : Prop :=
  ∀ key row, s.resources.find? key = some row →
    ∃ (job : String) (r : Resource), Job.isName job = true ∧ key = resourceKey job r.name
      ∧ row = .of r.toJson

namespace Labelled

variable {s : Store} {job : String}

/-- More resources of a job. -/
lemma putResources (h : s.Labelled) (valid : Job.isName job = true) (rs : List Resource) :
    (s.putResources job rs).Labelled := by
  intro key row found
  rcases Table.find?_of_insertMany found with before | member
  · exact h key row before
  · obtain ⟨r, -, same⟩ := List.mem_map.mp member
    obtain ⟨rfl, rfl⟩ : resourceKey job r.name = key ∧ Row.of r.toJson = row := by simpa using same
    exact ⟨job, r, valid, rfl, rfl⟩

lemma purge (h : s.Labelled) (job : String) : (s.purge job).2.Labelled := by
  intro key row found
  simp only [Store.purge, Table.find?_filter] at found
  split_ifs at found
  exact h key row found

/-- **A resource that is listed** of a job is the one under its name. -/
theorem getResource_of_listed (h : s.Labelled) (valid : Job.isName job = true)
    {listed : List Resource} (all : s.listResources job = .ok listed) {r : Resource}
    (member : r ∈ listed) : s.getResource job r.name = .ok (some r) := by
  obtain ⟨row, among, read⟩ := List.exists_of_mem_mapM all member
  obtain ⟨⟨key, row⟩, entry, rfl⟩ := List.mem_map.mp among
  have found := Table.mem_entries_iff.mp entry
  rw [Table.find?_filter] at found
  split_ifs at found with owned
  obtain ⟨other, r', valid', label, rfl⟩ := h key row found
  obtain rfl : r' = r := by simpa [Row.decode_resource] using read
  obtain ⟨name, same⟩ := resourceKey_of_isOwned owned
  obtain ⟨rfl, -⟩ := resourceKey_inj valid' valid (label.symm.trans same)
  rw [getResource, get, ← label, found]
  exact congrArg (Except.map some) (Row.decode_resource r')

end Labelled

end Store

end ControlPlane
