import Mathlib
import ControlPlane.Proofs.Json.Doubles
import ControlPlane.Proofs.Registry.Row

/-!
# Which values come back

A value that is written and read again comes back as it was, unless its brackets are nested deeper than
the reader goes, or one of its numbers is a double that the reader makes another one of.

* `Value.Proper` — the values that programs build: numbers for which there is a text, and members in
  the order of their keys, each key once.
* `Value.depth` — how deep the brackets of a value are nested.
* `Number.IsKept` — a number that is read as it was written; whole numbers of sixty-four bits are.
* `Value.value_tree_iff` — the values that come back from their trees.
-/

namespace ControlPlane.Json

/-! ## Values -/

/-- A number for which there is a text. -/
def Number.Proper : Number → Prop
  | .int i => IsWord i
  | .double d => d.isFinite = true

mutual

/-- **A value as programs build it.** -/
def Value.Proper : Value → Prop
  | .number n => n.Proper
  | .array items => ItemsProper items
  | .object members => (members.Pairwise fun a b => a.1 < b.1) ∧ MembersProper members
  | _ => True

def ItemsProper : List Value → Prop
  | [] => True
  | item :: rest => item.Proper ∧ ItemsProper rest

def MembersProper : List (String × Value) → Prop
  | [] => True
  | (_, value) :: rest => value.Proper ∧ MembersProper rest

end

mutual

/-- **How deep the brackets of a value are nested.** -/
def Value.depth : Value → ℕ
  | .array items => itemsDepth items + 1
  | .object members => membersDepth members + 1
  | _ => 0

def itemsDepth : List Value → ℕ
  | [] => 0
  | item :: rest => max item.depth (itemsDepth rest)

def membersDepth : List (String × Value) → ℕ
  | [] => 0
  | (_, value) :: rest => max value.depth (membersDepth rest)

end

/-- A number that is read as it was written. -/
def Number.IsKept (n : Number) : Prop := n.tree = .number (.ok n)

/-! ## Numbers -/

lemma Number.Proper.stands {n : Number} (h : n.Proper) : n.Stands := by
  cases n with
  | int i => exact stands_int h
  | double d => exact stands_double h

/-- The text of a number is read as a number. -/
lemma Number.Proper.tree_eq {n : Number} (h : n.Proper) : ∃ result, n.tree = .number result := by
  cases n with
  | int i => exact ⟨_, tree_int h⟩
  | double d =>
      obtain ⟨t, proper, text⟩ := d.exists_spell
      have finite : d.isFinite = true := h
      exact ⟨_, tree_of_spell proper (by rw [chars, if_pos finite, text])⟩

lemma Number.Proper.value_tree_iff {n : Number} (h : n.Proper) (depth : ℕ) :
    Decoder.value depth n.tree = .ok (.number n) ↔ n.IsKept := by
  obtain ⟨result, eq⟩ := h.tree_eq
  rw [IsKept, eq, Decoder.value]
  rcases result with fault | m <;> simp [Except.map]

mutual

/-- **The text of a proper value** can be cut into its parts. -/
theorem Value.Proper.stands : ∀ {v : Value}, v.Proper → v.AllNumbers Number.Stands
  | .null, _ | .bool _, _ | .string _, _ => trivial
  | .number n, h => by
      rw [Value.Proper] at h
      rw [Value.AllNumbers]
      exact h.stands
  | .array items, h => by
      rw [Value.Proper] at h
      rw [Value.AllNumbers]
      exact itemsProper_stands h
  | .object members, h => by
      rw [Value.Proper] at h
      rw [Value.AllNumbers]
      exact membersProper_stands h.2

theorem itemsProper_stands : ∀ {items : List Value}, ItemsProper items →
    AllInItems Number.Stands items
  | [], _ => trivial
  | _ :: _, h => by
      rw [ItemsProper] at h
      exact ⟨h.1.stands, itemsProper_stands h.2⟩

theorem membersProper_stands : ∀ {members : List (String × Value)}, MembersProper members →
    AllInMembers Number.Stands members
  | [], _ => trivial
  | (_, _) :: _, h => by
      rw [MembersProper] at h
      exact ⟨h.1.stands, membersProper_stands h.2⟩

end

/-! ## Members -/

/-- Members are read with the keys that they were written with. -/
lemma keys_of_memberValues {depth : ℕ} {members read : List (String × Value)}
    (h : Decoder.memberValues depth (memberTrees members) = .ok read) :
    read.map Prod.fst = members.map Prod.fst := by
  induction members generalizing read with
  | nil =>
      obtain rfl : [] = read := by simpa [memberTrees, Decoder.memberValues, Ending.strict] using h
      rfl
  | cons head rest ih =>
      obtain ⟨key, value⟩ := head
      simp only [memberTrees, Decoder.memberValues, bind, Except.bind, pure, Except.pure] at h
      rcases first : Decoder.value depth value.tree with fault | v
      · simp [first] at h
      · rcases others : Decoder.memberValues depth (memberTrees rest) with fault | vs
        · simp [first, others] at h
        · obtain rfl : (key, v) :: vs = read := by simpa [first, others] using h
          simp [ih others]

/-- Members that stand in the order of their keys are not moved. -/
lemma entries_ofList {members : List (String × Value)}
    (ordered : members.Pairwise fun a b => a.1 < b.1) :
    (Table.ofList members).entries = members :=
  Table.entries_insertMany .empty members (by simpa [Table.empty] using ordered)

lemma entries_of_memberValues {depth : ℕ} {members read : List (String × Value)}
    (ordered : members.Pairwise fun a b => a.1 < b.1)
    (h : Decoder.memberValues depth (memberTrees members) = .ok read) :
    (Table.ofList read).entries = read := by
  refine entries_ofList ?_
  have keys : (members.map Prod.fst).Pairwise (· < ·) := List.pairwise_map.mpr ordered
  rw [← keys_of_memberValues h] at keys
  exact List.pairwise_map.mp keys

/-! ## Values and their trees -/

/-- An opening bracket is passed as long as there is depth left for it. -/
lemma enter_succ (depth : ℕ) :
    enter (depth + 1) = if depth = 0 then .error .malformed else .ok depth := by
  cases depth <;> rfl

-- The induction follows the three mutual decoders.  One bracket more on the left is one level less
-- on the right, and a list of parts is kept when each of them is.
mutual

/-- **The values that come back from their trees.** -/
theorem Value.value_tree_iff : ∀ {v : Value}, v.Proper → ∀ depth : ℕ,
    Decoder.value (depth + 1) v.tree = .ok v ↔ v.depth ≤ depth ∧ v.AllNumbers Number.IsKept
  | .null, _, depth | .bool _, _, depth | .string _, _, depth => by
      simp [Value.tree, Decoder.value, Value.depth, Value.AllNumbers, Except.map]
  | .number n, h, depth => by
      rw [Value.Proper] at h
      simp only [Value.tree, Value.depth, Value.AllNumbers, Nat.zero_le, true_and]
      exact h.value_tree_iff _
  | .array items, h, depth => by
      rw [Value.Proper] at h
      simp only [Value.tree, Value.depth, Value.AllNumbers, Decoder.value, enter_succ]
      cases depth with
      | zero => simp [bind, Except.bind]
      | succ depth =>
          have inner := itemValues_trees_iff h depth
          rw [Nat.add_le_add_iff_right, ← inner]
          simp only [Nat.add_eq_zero_iff, one_ne_zero, and_false, if_false, bind, Except.bind, pure,
            Except.pure]
          rcases Decoder.itemValues (depth + 1) (itemTrees items) with fault | read <;> simp
  | .object members, h, depth => by
      rw [Value.Proper] at h
      simp only [Value.tree, Value.depth, Value.AllNumbers, Decoder.value, enter_succ]
      cases depth with
      | zero => simp [bind, Except.bind]
      | succ depth =>
          have inner := memberValues_trees_iff h.2 depth
          rw [Nat.add_le_add_iff_right, ← inner]
          simp only [Nat.add_eq_zero_iff, one_ne_zero, and_false, if_false, bind, Except.bind, pure,
            Except.pure]
          rcases outcome : Decoder.memberValues (depth + 1) (memberTrees members) with fault | read
          · simp
          · simp [entries_of_memberValues h.1 outcome]

theorem itemValues_trees_iff : ∀ {items : List Value}, ItemsProper items → ∀ depth : ℕ,
    Decoder.itemValues (depth + 1) (itemTrees items) = .ok items
      ↔ itemsDepth items ≤ depth ∧ AllInItems Number.IsKept items
  | [], _, depth => by
      simp [itemTrees, Decoder.itemValues, Ending.strict, itemsDepth, AllInItems]
  | item :: rest, h, depth => by
      rw [ItemsProper] at h
      have first := Value.value_tree_iff h.1 depth
      have others := itemValues_trees_iff h.2 depth
      simp only [itemTrees, Decoder.itemValues, itemsDepth, AllInItems, max_le_iff, bind, Except.bind,
        pure, Except.pure]
      rw [and_and_and_comm, ← first, ← others]
      rcases Decoder.value (depth + 1) item.tree with fault | v
      · simp
      · rcases Decoder.itemValues (depth + 1) (itemTrees rest) with fault | vs <;> simp

theorem memberValues_trees_iff : ∀ {members : List (String × Value)}, MembersProper members →
    ∀ depth : ℕ, Decoder.memberValues (depth + 1) (memberTrees members) = .ok members
      ↔ membersDepth members ≤ depth ∧ AllInMembers Number.IsKept members
  | [], _, depth => by
      simp [memberTrees, Decoder.memberValues, Ending.strict, membersDepth, AllInMembers]
  | (key, value) :: rest, h, depth => by
      rw [MembersProper] at h
      have first := Value.value_tree_iff h.1 depth
      have others := memberValues_trees_iff h.2 depth
      simp only [memberTrees, Decoder.memberValues, membersDepth, AllInMembers, max_le_iff, bind,
        Except.bind, pure, Except.pure]
      rw [and_and_and_comm, ← first, ← others]
      rcases Decoder.value (depth + 1) value.tree with fault | v
      · simp
      · rcases Decoder.memberValues (depth + 1) (memberTrees rest) with fault | vs <;> simp

end

end ControlPlane.Json
