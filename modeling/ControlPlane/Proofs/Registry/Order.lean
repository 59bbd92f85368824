import Mathlib
import ControlPlane.Proofs.Registry.Counters
import ControlPlane.Proofs.Registry.Keys
import ControlPlane.Proofs.Text.Bytes

/-!
# The order in which rows are listed

A table keeps its rows in the byte order of their keys, and a list of what it holds is made by reading
them one after the other.  Keys of the resources of one job share what stands before their names, and
so the order of the keys is that of the names.

* `resourceKey_lt_iff` — keys of one job compare as the names of the resources do.
* `Lists` — a list of everything in a map, in byte order of the names.
* `Table.exists_lists` — reading the rows of a table gives such a list.
-/

namespace ControlPlane

/-! ## Keys of one job -/

/-- **Keys of the resources of a job** compare as the names of the resources do. -/
lemma resourceKey_lt_iff {job a b : String} : resourceKey job a < resourceKey job b ↔ a < b := by
  have keeps : ∀ {a b : String}, a < b → resourceKey job a < resourceKey job b := by
    intro a b less
    show (resourceKey job a).toList < (resourceKey job b).toList
    rw [resourceKey_toList, resourceKey_toList]
    exact List.append_left_lt (List.cons_lt_cons_iff.mpr (.inr ⟨rfl, less⟩))
  constructor
  · intro less
    by_contra notLess
    rcases (not_lt.mp notLess).lt_or_eq with more | same
    · exact lt_asymm less (keeps more)
    · exact lt_irrefl _ (same ▸ less)
  · exact keeps

/-! ## Lists of maps -/

/-- **A list of everything in a map**: in byte order of the names, so that nothing stands there twice,
and with all that the map holds and nothing else. -/
structure Lists {α : Type} (name : α → String) (held : String → Option α) (l : List α) : Prop where
  ordered : l.Pairwise fun a b => bytes (name a) < bytes (name b)
  mem_iff : ∀ a, a ∈ l ↔ held (name a) = some a

section Rows

variable {α β : Type} {P : α → β → Prop} {items : List α} {results : List β}

/-- What can be found for each item can be found for the list. -/
lemma List.exists_forall₂ (all : ∀ a ∈ items, ∃ b, P a b) : ∃ bs, List.Forall₂ P items bs := by
  induction items with
  | nil => exact ⟨[], .nil⟩
  | cons a rest ih =>
      obtain ⟨b, first⟩ := all a List.mem_cons_self
      obtain ⟨bs, others⟩ := ih fun o member => all o (List.mem_cons_of_mem a member)
      exact ⟨b :: bs, .cons first others⟩

lemma List.Forall₂.exists_of_mem (pairs : List.Forall₂ P items results) {a : α}
    (member : a ∈ items) : ∃ b ∈ results, P a b := by
  induction pairs with
  | nil => simp at member
  | @cons o b rest bs first _ ih =>
      rcases List.mem_cons.mp member with rfl | member
      · exact ⟨b, List.mem_cons_self, first⟩
      · obtain ⟨b', there, same⟩ := ih member
        exact ⟨b', List.mem_cons_of_mem b there, same⟩

end Rows

/-- **The rows of a table read one after the other** list the map that the table has been made of, if
every row can be read and the keys are made of the names in their order. -/
lemma Table.exists_lists {α : Type} {rows : Table Row} {d : Json.Decoder α} (row : α → Row)
    {name : α → String} (key : String → String) {held : String → Option α}
    (order : ∀ {a b}, key a < key b ↔ a < b)
    (reads : ∀ n a, held n = some a → name a = n ∧ Row.decode d (row a) = .ok a)
    (found : ∀ k r, rows.find? k = some r ↔ ∃ n a, held n = some a ∧ k = key n ∧ r = row a) :
    ∃ l, rows.values.mapM (Row.decode d) = .ok l ∧ Lists name held l := by
  have made : ∀ e ∈ rows.entries, ∃ a, held (name a) = some a ∧ e.1 = key (name a) ∧ e.2 = row a := by
    rintro ⟨k, r⟩ entry
    obtain ⟨n, a, there, rfl, rfl⟩ := (found k r).mp (mem_entries_iff.mp entry)
    obtain ⟨rfl, -⟩ := reads n a there
    exact ⟨a, there, rfl, rfl⟩
  obtain ⟨l, pairs⟩ := List.exists_forall₂ made
  have readable : ∀ a, held (name a) = some a → Row.decode d (row a) = .ok a :=
    fun a there => (reads _ a there).2
  refine ⟨l, ?_, ?_, ?_⟩
  · refine List.mapM_eq_ok_iff.mpr (List.forall₂_map_left_iff.mpr (pairs.imp ?_))
    rintro e a ⟨there, -, same⟩
    rw [same]
    exact readable a there
  · -- the names of what has been read, as keys, are the keys of the table
    have keys : List.Forall₂ (· = ·) (rows.entries.map (·.1)) (l.map fun a => key (name a)) :=
      List.forall₂_map_left_iff.mpr (List.forall₂_map_right_iff.mpr (pairs.imp fun _ _ h => h.2.1))
    rw [List.forall₂_eq_eq_eq] at keys
    have ordered := List.pairwise_map.mpr rows.ordered
    rw [keys, List.pairwise_map] at ordered
    exact ordered.imp fun less => bytes_lt_iff.mpr (order.mp less)
  · intro a
    constructor
    · intro member
      obtain ⟨-, -, there, -⟩ := List.Forall₂.exists_of_mem pairs.flip member
      exact there
    · intro there
      have entry := mem_entries_iff.mpr ((found (key (name a)) (row a)).mpr ⟨_, a, there, rfl, rfl⟩)
      obtain ⟨b, member, there', -, same⟩ := List.Forall₂.exists_of_mem pairs entry
      have one := readable a there
      rw [show row a = row b from same, readable b there'] at one
      exact (Except.ok.inj one) ▸ member

end ControlPlane
