import Mathlib
import ControlPlane.Proofs.Cluster.Frame
import ControlPlane.Proofs.Json.Values

/-!
# Which graphs come back from the store

A graph is written as an object with its body under one key, and so the body stands one bracket deeper
there than alone.  The references always come back; the body comes back exactly when it can be read
from where it stands.

* `Graph.Readable` — the graphs that come back.
* `Graph.decoder_tree` — a graph is read as its body is.
* `Store.getGraph_putGraph_iff` — what is read after a graph has been written.
-/

namespace ControlPlane

/-! ## References -/

namespace Json

lemma listItems_strings (depth : ℕ) (names : List String) :
    Decoder.listItems (Decoder.string depth) (itemTrees (names.map .string)) = .ok names := by
  induction names with
  | nil => rfl
  | cons name rest ih =>
      simp only [List.map_cons, itemTrees, Decoder.listItems, ih]
      rfl

lemma names_tree (t : Table Unit) (depth : ℕ) :
    Decoder.names (depth + 2) (Value.array (t.names.map .string)).tree = .ok t := by
  have items := listItems_strings (depth + 1) t.names
  have entries : t.names.map (fun s => (s, ())) = t.entries := by
    rw [Table.names, List.map_map]
    exact List.map_id _
  simp only [Value.tree, Decoder.names, Decoder.list, enter, items, entries, bind, Except.bind, pure,
    Except.pure, Table.ofList_entries]

lemma allInItems_strings (P : Number → Prop) (names : List String) :
    AllInItems P (names.map .string) := by
  induction names with
  | nil => trivial
  | cons name rest ih => exact ⟨trivial, ih⟩

end Json

/-! ## Graphs -/

namespace Graph

/-- **A graph that comes back**: the brackets of its body leave room for the one around it, and its
numbers are read as they are written. -/
def Readable (g : Graph) : Prop :=
  g.body.depth < Json.maxDepth ∧ g.body.AllNumbers Json.Number.IsKept

lemma allNumbers {g : Graph} (proper : g.body.Proper) : g.toJson.AllNumbers Json.Number.Stands :=
  ⟨proper.stands, Json.allInItems_strings _ _, trivial⟩

/-- **A graph is read as its body is.** -/
lemma decoder_tree (g : Graph) (depth : ℕ) :
    Graph.decoder (depth + 3) g.toJson.tree
      = (Json.Decoder.value (depth + 2) g.body.tree).map fun body => ⟨body, g.references⟩ := by
  have references := Json.names_tree g.references depth
  rw [toJson, Json.Value.tree, decoder]
  simp only [Json.memberTrees, Json.Decoder.record, Json.enter]
  rcases body : Json.Decoder.value (depth + 2) g.body.tree with fault | v <;>
    simp [Json.Decoder.recordMembers, Json.Decoder.check, body, references, bind, Except.bind, pure,
      Except.pure, Except.map, List.lookup, Json.Ending.strict, Json.Decoder.Fields.required,
      Json.Decoder.Fields.orElse]

/-- **The row of a graph** holds the graph exactly when it is one that comes back. -/
theorem decode_row_iff {g : Graph} (proper : g.body.Proper) :
    Row.decode Graph.decoder (.of g.toJson) = .ok g ↔ g.Readable := by
  obtain ⟨body, references⟩ := g
  rw [Row.decode_of (allNumbers proper), show Json.maxDepth + 1 = 125 + 3 from rfl, decoder_tree,
    Readable, show Json.maxDepth = 126 + 1 from rfl, Nat.lt_succ_iff,
    ← Json.Value.value_tree_iff proper 126]
  simp only [Nat.reduceAdd]
  rcases Json.Decoder.value 127 body.tree with fault | v <;> simp [Except.map, Except.mapError]

end Graph

/-- **What is read after a graph has been written** is this graph, if it is one that comes back. -/
theorem Store.getGraph_putGraph_iff (s : Store) (job : String) {g : Graph} (proper : g.body.Proper) :
    (s.putGraph job g).getGraph job = .ok (some g) ↔ g.Readable := by
  rw [← Graph.decode_row_iff proper, getGraph, get, putGraph]
  simp only [Table.find?_insert, if_true]
  rcases Row.decode Graph.decoder (.of g.toJson) with e | h <;> simp [Except.map]

end ControlPlane
