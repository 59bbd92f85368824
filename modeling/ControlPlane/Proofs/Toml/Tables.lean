import Mathlib
import ControlPlane.Toml.Document
import ControlPlane.Toml.Writer

/-!
# What sections make of a table

A header opens a table at its path, and the pairs below it are put into that table.  What the sections of a
document make can hence be said without their text, and for sections whose paths begin alike it can be said
inside of one table.

* `Rows.descend_append`, `Rows.descend_bind` — changes at a path, one inside the other and one after the other.
* `Rows.write` — what one section does; `Rows.writeAll` — what several do.
* `Rows.write_new` — a section of a new name adds one table with the pairs as they are.
* **`Rows.writeAll_under`** — sections below a path act inside of the table there.
-/

namespace ControlPlane.Toml

/-! ## Keys of rows -/

namespace Rows

variable {rows : Rows} {key : String}

/-- The rows do not have the key. -/
def Lacks (rows : Rows) (key : String) : Prop := List.lookup key rows = none

lemma lacks_nil (key : String) : Rows.Lacks [] key := rfl

@[simp] lemma lookup_put (rows : Rows) (key : String) (entry : Entry) :
    List.lookup key (rows.put key entry) = some entry := by
  induction rows with
  | nil => simp [put]
  | cons e rest ih =>
      rw [put]
      split_ifs with here
      · simp
      · rw [List.lookup_cons, beq_false_of_ne (Ne.symm here)]
        exact ih

@[simp] lemma put_put (rows : Rows) (key : String) (old new : Entry) :
    (rows.put key old).put key new = rows.put key new := by
  induction rows with
  | nil => simp [put]
  | cons e rest ih =>
      rw [put]
      split_ifs with here
      · simp [put, here]
      · rw [put, if_neg here, ih, put, if_neg here]

/-- A new key comes last. -/
lemma put_new (new : rows.Lacks key) (entry : Entry) : rows.put key entry = rows ++ [(key, entry)] := by
  induction rows with
  | nil => rfl
  | cons e rest ih =>
      unfold Lacks at new ih
      rw [List.lookup_cons] at new
      split at new
      · contradiction
      · rename_i other
        have differs : e.1 ≠ key := by
          rintro rfl
          simp at other
        rw [put, if_neg differs, ih new, List.cons_append]

lemma lacks_append {other : Rows} : (rows ++ other).Lacks key ↔ rows.Lacks key ∧ other.Lacks key := by
  unfold Lacks
  rw [List.lookup_append, Option.or_eq_none_iff]

lemma lacks_of_forall_ne (absent : ∀ e ∈ rows, e.1 ≠ key) : rows.Lacks key := by
  refine List.lookup_eq_none_iff.mpr fun e member => ?_
  simpa using (absent e member).symm

/-! ## Changes at a path -/

lemma descend_append (change : Rows → Option Rows) (above below : List String) (rows : Rows) :
    rows.descend change (above ++ below) = rows.descend (descend change below) above := by
  induction above generalizing rows with
  | nil => rfl
  | cons key above ih => simp only [List.cons_append, descend, ih]

/-- **Two changes at one path** are one change there. -/
lemma descend_bind (first second : Rows → Option Rows) (path : List String) (rows : Rows) :
    (rows.descend first path).bind (descend second path)
      = rows.descend (fun inner => (first inner).bind second) path := by
  induction path generalizing rows with
  | nil => rfl
  | cons key path ih =>
      simp only [descend]
      cases found : List.lookup key rows with
      | none =>
          dsimp only
          rw [← ih]
          cases descend first path [] with
          | none => rfl
          | some inner => simp
      | some entry =>
          cases entry with
          | value v => rfl
          | table origin inner =>
              dsimp only
              rw [← ih]
              cases descend first path inner with
              | none => rfl
              | some inner => simp
          | tables earlier last =>
              dsimp only
              rw [← ih]
              cases descend first path last with
              | none => rfl
              | some last => simp

/-- Several changes at one path, after a first one, are one change there. -/
lemma foldlM_descend {α : Type} (start : Rows → Option Rows) (change : α → Rows → Option Rows) (path : List String)
    (xs : List α) (rows : Rows) :
    (rows.descend start path).bind (xs.foldlM (fun rows x => rows.descend (change x) path))
      = rows.descend (fun inner => (start inner).bind (xs.foldlM fun inner x => change x inner)) path := by
  induction xs generalizing start with
  | nil => simp
  | cons x xs ih =>
      have together := ih fun inner => (start inner).bind (change x)
      rw [← descend_bind, Option.bind_assoc] at together
      simpa only [List.foldlM_cons, Option.bind_eq_bind, Option.bind_assoc] using together

/-- A change below a new key makes the table that a header implies. -/
lemma descend_new (new : rows.Lacks key) (change : Rows → Option Rows) :
    rows.descend change [key] = (change []).map fun inner => rows ++ [(key, .table .implied inner)] := by
  unfold Lacks at new
  simp only [descend, new, put_new new]

end Rows

/-! ## Sections -/

/-- The value that a pair gives to its key. -/
def Scalar.value : Scalar → Value
  | string s => .string s
  | integer i => .integer i

/-- The rows of pairs as they are. -/
def pairRows (pairs : List (String × Scalar)) : Rows := pairs.map fun p => (p.1, .value p.2.value)

/-- The section at a path below another one. -/
def Section.under (path : List String) (s : Section) : Section := { s with path := path ++ s.path }

namespace Rows

variable {rows : Rows} {key : String}

/-- What a section does in the table above its own one: the header opens a table, and the pairs are put there. -/
def openWith (key : String) (pairs : List (String × Scalar)) (rows : Rows) : Option Rows :=
  (rows.openTable key).bind (pairs.foldlM fun rows p => rows.descend (assign p.2.value [p.1]) [key])

/-- **What a section does.** -/
def write (rows : Rows) (s : Section) : Option Rows := do
  let key ← s.path.getLast?
  rows.descend (openWith key s.pairs) s.path.dropLast

/-- **What several sections do**, one after the other. -/
def writeAll (rows : Rows) (sections : List Section) : Option Rows := sections.foldlM write rows

lemma writeAll_append (rows : Rows) (before after : List Section) :
    rows.writeAll (before ++ after) = (rows.writeAll before).bind fun rows => rows.writeAll after :=
  List.foldlM_append

/-- **A section is written line by line**: the header, and then each pair into the table at the path. -/
lemma write_eq {s : Section} {above : List String} (split : s.path = above ++ [key]) (rows : Rows) :
    rows.write s = (rows.descend (openTable key) above).bind
      (s.pairs.foldlM fun rows p => rows.descend (assign p.2.value [p.1]) s.path) := by
  have together := foldlM_descend (openTable key) (fun p inner => inner.descend (assign p.2.value [p.1]) [key]) above
    s.pairs rows
  rw [write, split]
  simp only [descend_append, List.getLast?_concat, List.dropLast_concat, Option.bind_eq_bind, Option.bind_some]
  exact together.symm

/-! ### New names -/

/-- Pairs with keys of their own are put into a table as they are. -/
lemma foldlM_assign (rows inner : Rows) (key : String) {pairs : List (String × Scalar)}
    (distinct : (inner.map (·.1) ++ pairs.map (·.1)).Nodup) :
    pairs.foldlM (fun rows p => rows.descend (assign p.2.value [p.1]) [key]) (rows.put key (.table .header inner))
      = some (rows.put key (.table .header (inner ++ pairRows pairs))) := by
  induction pairs generalizing inner with
  | nil => rw [pairRows, List.map_nil, List.append_nil]; rfl
  | cons p rest ih =>
      have new : inner.Lacks p.1 := by
        refine lacks_of_forall_ne fun e member same => ?_
        have apart := (List.nodup_append.mp distinct).2.2 e.1 (List.mem_map_of_mem member) p.1
        exact apart List.mem_cons_self same
      have one : Rows.descend (assign p.2.value [p.1]) [key] (rows.put key (.table .header inner))
          = some (rows.put key (.table .header (inner ++ [(p.1, .value p.2.value)]))) := by
        have absent : ¬(List.lookup p.1 inner).isSome = true := by
          rw [show List.lookup p.1 inner = none from new]
          simp
        simp only [descend, lookup_put, assign, if_neg absent, Option.map_some, put_put, put_new new]
      rw [List.foldlM_cons, one]
      have others := ih (inner ++ [(p.1, .value p.2.value)]) (by simpa using distinct)
      rw [List.append_assoc] at others
      exact others

lemma openWith_new (new : rows.Lacks key) {pairs : List (String × Scalar)} (distinct : (pairs.map (·.1)).Nodup) :
    rows.openWith key pairs = some (rows ++ [(key, .table .header (pairRows pairs))]) := by
  have opened : rows.openTable key = some (rows.put key (.table .header [])) := by
    rw [openTable, show List.lookup key rows = none from new]
  rw [openWith, opened, Option.bind_some, foldlM_assign rows [] key (by simpa using distinct), put_new new]
  rfl

/-- **A section of a new name** adds one table with its pairs. -/
lemma write_new (new : rows.Lacks key) {pairs : List (String × Scalar)} (distinct : (pairs.map (·.1)).Nodup) :
    rows.write ⟨[key], pairs⟩ = some (rows ++ [(key, .table .header (pairRows pairs))]) :=
  openWith_new new distinct

/-! ### Sections below a path -/

lemma write_under (path : List String) {s : Section} (named : s.path ≠ []) (rows : Rows) :
    rows.write (s.under path) = rows.descend (fun inner => inner.write s) path := by
  obtain ⟨above, key, split⟩ := List.eq_nil_or_concat s.path |>.resolve_left named
  have inside : ∀ inner : Rows, inner.write s = inner.descend (openWith key s.pairs) above := by
    intro inner
    rw [write, split]
    simp
  simp only [inside]
  rw [← descend_append, write, Section.under, split]
  simp

lemma writeAll_map_under (path : List String) {sections : List Section} (named : ∀ s ∈ sections, s.path ≠ [])
    (rows : Rows) : rows.writeAll (sections.map (Section.under path))
      = sections.foldlM (fun rows s => rows.descend (fun inner => inner.write s) path) rows := by
  induction sections generalizing rows with
  | nil => rfl
  | cons s rest ih =>
      obtain ⟨first, others⟩ := List.forall_mem_cons.mp named
      rw [writeAll, List.map_cons, List.foldlM_cons, write_under path first, List.foldlM_cons]
      exact bind_congr fun rows => ih others rows

/-- **Sections below a path act inside of the table there.** -/
lemma writeAll_under (path : List String) {sections : List Section} (filled : sections ≠ [])
    (named : ∀ s ∈ sections, s.path ≠ []) (rows : Rows) :
    rows.writeAll (sections.map (Section.under path))
      = rows.descend (fun inner => inner.writeAll sections) path := by
  obtain ⟨first, rest, rfl⟩ := List.exists_cons_of_ne_nil filled
  have together := foldlM_descend (fun inner => inner.write first) (fun s inner => inner.write s) path rest rows
  rw [writeAll_map_under path named, List.foldlM_cons]
  exact together

end Rows

end ControlPlane.Toml
