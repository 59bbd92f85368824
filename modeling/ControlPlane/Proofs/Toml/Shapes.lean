import Mathlib
import ControlPlane.Proofs.Registry.Resources
import ControlPlane.Proofs.Toml.Bounds
import ControlPlane.Toml.Decoder

/-!
# What is decoded of values

What a value is decoded to, said without the decoding: a count is an integer below its bound, a field is what
stands under its name or what is assumed for it, and a table has the values that its entries are decoded to.

* `Value.below?_eq_some_iff` — counts.
* `Fields.orElse_cases`, `Value.Bounded.fields?` — fields, and those of a bounded value.
* `Value.exists_of_table?`, **`Value.table?_entries`** — what is in a table, and which table is read back.
-/

namespace ControlPlane.Toml

/-! ## Fields -/

/-- **A count** is an integer below its bound. -/
lemma Value.below?_eq_some_iff {bound n : ℕ} {v : Value} :
    v.below? bound = some n ↔ v = .integer n ∧ n < bound := by
  constructor
  · intro read
    unfold Value.below? at read
    split at read
    · rename_i i
      split_ifs at read with range
      obtain ⟨low, high⟩ : 0 ≤ i ∧ i < bound := by simpa using range
      obtain rfl := Option.some.inj read
      exact ⟨by rw [Int.toNat_of_nonneg low], by omega⟩
    · contradiction
  · rintro ⟨rfl, small⟩
    have range : (n : ℤ) < bound := by exact_mod_cast small
    simp [Value.below?, range]

variable {f : Fields} {name : String}

/-- A field is what stands under its name, or what is assumed when it is missing. -/
lemma Fields.orElse_cases {α : Type} {read : Value → Option α} {missing a : α}
    (made : f.orElse name read missing = some a) :
    a = missing ∨ ∃ v, f.lookup name = some v ∧ read v = some a := by
  unfold Fields.orElse at made
  split at made
  · rename_i v found
    exact .inr ⟨v, found, made⟩
  · exact .inl (Option.some.inj made).symm

lemma mem_of_lookup {v : Value} (found : f.lookup name = some v) : (name, v) ∈ f := by
  obtain ⟨before, after, rfl, -⟩ := List.lookup_eq_some_iff.mp found
  simp

lemma Value.Bounded.entry {v : Value} (bounded : (Value.table f).Bounded) (found : f.lookup name = some v) :
    v.Bounded := by
  cases bounded with
  | table all => exact all (name, v) (mem_of_lookup found)

/-- **The fields of a bounded value** are bounded. -/
lemma Value.Bounded.fields? {names : List String} {v w : Value} (bounded : v.Bounded)
    (fields : v.fields? names = some f) (found : f.lookup name = some w) : w.Bounded := by
  have member := mem_of_lookup found
  cases bounded with
  | array all =>
      rw [← Option.some.inj fields] at member
      exact all w (List.of_mem_zip member).2
  | table all =>
      rw [← Option.some.inj fields] at member
      exact all (name, w) member
  | datetime d =>
      rw [← Option.some.inj fields] at member
      obtain ⟨-, rfl⟩ := Prod.mk.inj (List.mem_singleton.mp member)
      exact .string _
  | string s => contradiction
  | integer low high => contradiction
  | float d => contradiction
  | boolean b => contradiction

/-! ## Tables -/

lemma exists_of_mapM_eq_some {α β : Type} {read : α → Option β} {xs : List α} {ys : List β}
    (made : xs.mapM read = some ys) {y : β} (member : y ∈ ys) : ∃ x ∈ xs, read x = some y := by
  induction xs generalizing ys with
  | nil =>
      obtain rfl : [] = ys := Option.some.inj made
      contradiction
  | cons x rest ih =>
      rw [List.mapM_cons] at made
      obtain ⟨first, read_first, made⟩ := Option.bind_eq_some_iff.mp made
      obtain ⟨others, read_others, made⟩ := Option.bind_eq_some_iff.mp made
      obtain rfl : first :: others = ys := Option.some.inj made
      rcases List.mem_cons.mp member with rfl | inside
      · exact ⟨x, List.mem_cons_self, read_first⟩
      · obtain ⟨o, there, read_o⟩ := ih read_others inside
        exact ⟨o, List.mem_cons_of_mem x there, read_o⟩

variable {α : Type} {t : Table α}

/-- **Every value of a table that is read** has been read from some value. -/
lemma Value.exists_of_table? {read : Value → Option α} {v : Value} (made : v.table? read = some t) {e : String × α}
    (member : e ∈ t.entries) : ∃ w, read w = some e.2 := by
  obtain ⟨entries, -, made⟩ := Option.bind_eq_some_iff.mp made
  obtain ⟨pairs, all, made⟩ := Option.bind_eq_some_iff.mp made
  obtain rfl := Option.some.inj made
  obtain before | inserted := Table.find?_of_insertMany (Table.mem_entries_iff.mp member)
  · contradiction
  · obtain ⟨o, -, read_o⟩ := exists_of_mapM_eq_some all inserted
    obtain ⟨a, read_it, same⟩ := Option.map_eq_some_iff.mp read_o
    exact ⟨o.2, by rw [read_it, (Prod.mk.inj same).2]⟩

/-- **A table is read back** from its entries, if each of its values is. -/
lemma Value.table?_entries (read : Value → Option α) (write : α → Value)
    (back : ∀ e ∈ t.entries, read (write e.2) = some e.2) :
    (Value.table (t.entries.map fun e => (e.1, write e.2))).table? read = some t := by
  have pairs : ∀ entries : List (String × α), (∀ e ∈ entries, read (write e.2) = some e.2) →
      (entries.map fun e => (e.1, write e.2)).mapM (fun e => (read e.2).map fun a => (e.1, a)) = some entries := by
    intro entries back
    induction entries with
    | nil => rfl
    | cons e rest ih =>
        obtain ⟨first, others⟩ := List.forall_mem_cons.mp back
        rw [List.map_cons, List.mapM_cons, ih others]
        simp [first]
  simp only [Value.table?, Value.entries?, bind, Option.bind, pairs t.entries back, Table.ofList_entries]

end ControlPlane.Toml
