import Mathlib
import ControlPlane.Toml.Document

/-!
# Integers of documents fit

A document holds no integer beyond sixty-four bits with sign, wherever in it: such a number is refused where it
is read, and all that is done to values afterwards is to put them into tables.

* `Value.Bounded` — all integers in a value are in range.
* `Rows.Bounded.assign`, `Rows.Bounded.descend` — pairs and headers keep them there.
* **`bounded_of_parse?`** — the integers of a document are in range.
-/

namespace ControlPlane.Toml

/-! ## Bounded values and rows -/

/-- **A value without integers beyond sixty-four bits**, however deep in it. -/
inductive Value.Bounded : Value → Prop
  | string (s : String) : Bounded (.string s)
  | integer {i : ℤ} (low : minInteger ≤ i) (high : i ≤ maxInteger) : Bounded (.integer i)
  | float (d : Double) : Bounded (.float d)
  | boolean (b : Bool) : Bounded (.boolean b)
  | datetime (d : Datetime) : Bounded (.datetime d)
  | array {items : List Value} (all : ∀ v ∈ items, Bounded v) : Bounded (.array items)
  | table {entries : List (String × Value)} (all : ∀ e ∈ entries, Bounded e.2) : Bounded (.table entries)

/-- Rows are bounded if what they come to is. -/
def Rows.Bounded (rows : Rows) : Prop := ∀ e ∈ rows, e.2.finish.Bounded

lemma finishRows_eq_map (rows : Rows) : finishRows rows = rows.map fun e => (e.1, e.2.finish) := by
  induction rows with
  | nil => rfl
  | cons e rest ih =>
      obtain ⟨key, entry⟩ := e
      rw [finishRows, ih, List.map_cons]

lemma finishAll_eq_map (all : List Rows) : finishAll all = all.map fun rows => .table (finishRows rows) := by
  induction all with
  | nil => rfl
  | cons rows rest ih => rw [finishAll, ih, List.map_cons]

namespace Rows

lemma bounded_nil : Rows.Bounded [] := fun _ member => absurd member List.not_mem_nil

lemma bounded_table_iff {rows : Rows} : (Value.table (finishRows rows)).Bounded ↔ Bounded rows := by
  constructor
  · rintro ⟨⟩
    rename_i all
    intro e member
    exact all (e.1, e.2.finish) (by rw [finishRows_eq_map]; exact List.mem_map_of_mem member)
  · intro bounded
    refine .table fun e member => ?_
    rw [finishRows_eq_map] at member
    obtain ⟨e, inside, rfl⟩ := List.mem_map.mp member
    exact bounded e inside

lemma bounded_tables_iff {earlier : List Rows} {last : Rows} :
    (Entry.tables earlier last).finish.Bounded ↔ (∀ rows ∈ earlier, Bounded rows) ∧ Bounded last := by
  rw [Entry.finish, finishAll_eq_map]
  constructor
  · rintro ⟨⟩
    rename_i all
    refine ⟨fun rows member => bounded_table_iff.mp (all _ ?_), bounded_table_iff.mp (all _ ?_)⟩
    · exact List.mem_append_left _ (List.mem_map_of_mem member)
    · exact List.mem_append_right _ List.mem_cons_self
  · rintro ⟨others, ends⟩
    refine .array fun v member => ?_
    rcases List.mem_append.mp member with inside | inside
    · obtain ⟨rows, earlier_one, rfl⟩ := List.mem_map.mp inside
      exact bounded_table_iff.mpr (others rows earlier_one)
    · rw [List.mem_singleton.mp inside]
      exact bounded_table_iff.mpr ends

variable {rows changed : Rows}

lemma Bounded.put (bounded : rows.Bounded) (key : String) {entry : Entry} (fits : entry.finish.Bounded) :
    (rows.put key entry).Bounded := by
  induction rows with
  | nil => simpa [Rows.Bounded, Rows.put] using fits
  | cons e rest ih =>
      obtain ⟨first, others⟩ := List.forall_mem_cons.mp bounded
      rw [Rows.put]
      split_ifs
      · exact List.forall_mem_cons.mpr ⟨fits, others⟩
      · exact List.forall_mem_cons.mpr ⟨first, ih others⟩

lemma Bounded.lookup (bounded : rows.Bounded) {key : String} {entry : Entry}
    (found : List.lookup key rows = some entry) : entry.finish.Bounded := by
  obtain ⟨before, after, rfl, -⟩ := List.lookup_eq_some_iff.mp found
  exact bounded (key, entry) (by simp)

/-- **A pair keeps rows bounded** if its value is. -/
lemma Bounded.assign {value : Value} (fits : value.Bounded) {path : List String} (bounded : rows.Bounded)
    (done : rows.assign value path = some changed) : changed.Bounded := by
  induction path generalizing rows changed with
  | nil => contradiction
  | cons key path ih =>
      cases path with
      | nil =>
          rw [Rows.assign] at done
          split_ifs at done
          rw [← Option.some.inj done]
          exact bounded.put key fits
      | cons next path =>
          rw [Rows.assign] at done
          split at done
          · obtain ⟨inner, made, rfl⟩ := Option.map_eq_some_iff.mp done
            exact bounded.put key (bounded_table_iff.mpr (ih bounded_nil made))
          · rename_i origin inner found
            split_ifs at done
            obtain ⟨inner, made, rfl⟩ := Option.map_eq_some_iff.mp done
            exact bounded.put key (bounded_table_iff.mpr (ih (bounded_table_iff.mp (bounded.lookup found)) made))
          · rename_i earlier last found
            split_ifs at done
            obtain ⟨last, made, rfl⟩ := Option.map_eq_some_iff.mp done
            obtain ⟨others, ends⟩ := bounded_tables_iff.mp (bounded.lookup found)
            exact bounded.put key (bounded_tables_iff.mpr ⟨others, ih ends made⟩)
          · contradiction

/-- **A change below a path keeps rows bounded** if it does so in its place. -/
lemma Bounded.descend {change : Rows → Option Rows}
    (kept : ∀ {inner made : Rows}, inner.Bounded → change inner = some made → made.Bounded) {path : List String}
    (bounded : rows.Bounded) (done : rows.descend change path = some changed) : changed.Bounded := by
  induction path generalizing rows changed with
  | nil => exact kept bounded done
  | cons key path ih =>
      rw [Rows.descend] at done
      split at done
      · obtain ⟨inner, made, rfl⟩ := Option.map_eq_some_iff.mp done
        exact bounded.put key (bounded_table_iff.mpr (ih bounded_nil made))
      · rename_i origin inner found
        obtain ⟨inner, made, rfl⟩ := Option.map_eq_some_iff.mp done
        exact bounded.put key (bounded_table_iff.mpr (ih (bounded_table_iff.mp (bounded.lookup found)) made))
      · rename_i earlier last found
        obtain ⟨last, made, rfl⟩ := Option.map_eq_some_iff.mp done
        obtain ⟨others, ends⟩ := bounded_tables_iff.mp (bounded.lookup found)
        exact bounded.put key (bounded_tables_iff.mpr ⟨others, ih ends made⟩)
      · contradiction

lemma Bounded.openTable {key : String} (bounded : rows.Bounded) (done : rows.openTable key = some changed) :
    changed.Bounded := by
  unfold Rows.openTable at done
  split at done
  · rw [← Option.some.inj done]
    exact bounded.put key (bounded_table_iff.mpr bounded_nil)
  · rename_i inner found
    rw [← Option.some.inj done]
    exact bounded.put key (bounded_table_iff.mpr (bounded_table_iff.mp (bounded.lookup found)))
  · contradiction

lemma Bounded.openElement {key : String} (bounded : rows.Bounded) (done : rows.openElement key = some changed) :
    changed.Bounded := by
  unfold Rows.openElement at done
  split at done
  · rw [← Option.some.inj done]
    exact bounded.put key (bounded_tables_iff.mpr ⟨nofun, bounded_nil⟩)
  · rename_i earlier last found
    obtain ⟨others, ends⟩ := bounded_tables_iff.mp (bounded.lookup found)
    rw [← Option.some.inj done]
    refine bounded.put key (bounded_tables_iff.mpr ⟨fun rows member => ?_, bounded_nil⟩)
    rcases List.mem_append.mp member with inside | inside
    · exact others rows inside
    · rw [List.mem_singleton.mp inside]
      exact ends
  · contradiction

lemma bounded_ofPairs {pairs : List (List String × Value)} (fits : ∀ p ∈ pairs, p.2.Bounded)
    (done : Rows.ofPairs pairs = some rows) : rows.Bounded := by
  have kept : ∀ {start : Rows}, start.Bounded →
      pairs.foldlM (fun rows p => Rows.assign p.2 p.1 rows) start = some rows → rows.Bounded := by
    clear done
    induction pairs with
    | nil =>
        intro start bounded done
        rwa [← Option.some.inj done]
    | cons p rest ih =>
        obtain ⟨first, others⟩ := List.forall_mem_cons.mp fits
        intro start bounded done
        rw [List.foldlM_cons, Option.bind_eq_bind, Option.bind_eq_some_iff] at done
        obtain ⟨next, made, done⟩ := done
        exact ih others (bounded.assign first made) done
  exact kept bounded_nil done

end Rows

/-! ## Values that are read -/

lemma checked_bounds {n i : ℤ} {cs rest : List Char} (read : checked n cs = some (i, rest)) :
    minInteger ≤ i ∧ i ≤ maxInteger := by
  unfold checked at read
  split_ifs at read with range
  obtain ⟨rfl, -⟩ := Prod.mk.inj (Option.some.inj read)
  simpa using range

lemma readBased_bounds {base : ℕ} {i : ℤ} {cs rest : List Char} (read : readBased base cs = some (i, rest)) :
    minInteger ≤ i ∧ i ≤ maxInteger := by
  unfold readBased at read
  obtain ⟨digits, -, read⟩ := Option.bind_eq_some_iff.mp read
  exact checked_bounds read

lemma readInteger_bounds {i : ℤ} {cs rest : List Char} (read : readInteger cs = some (i, rest)) :
    minInteger ≤ i ∧ i ≤ maxInteger := by
  unfold readInteger at read
  split at read
  · exact readBased_bounds read
  · exact readBased_bounds read
  · exact readBased_bounds read
  · obtain ⟨digits, -, read⟩ := Option.bind_eq_some_iff.mp read
    exact checked_bounds read

lemma readScalar_bounded {cs rest : List Char} {v : Value} (read : readScalar cs = some (v, rest)) :
    v.Bounded := by
  have word : ∀ {name : String} {b : Bool}, readWord name (.boolean b) cs = some (v, rest) → v.Bounded := by
    intro name b read
    unfold readWord at read
    split_ifs at read
    obtain ⟨rfl, -⟩ := Prod.mk.inj (Option.some.inj read)
    exact .boolean b
  cases cs with
  | nil => contradiction
  | cons c cs =>
      rw [readScalar] at read
      split_ifs at read
      · obtain ⟨⟨s, more⟩, -, made⟩ := Option.map_eq_some_iff.mp read
        obtain ⟨rfl, -⟩ := Prod.mk.inj made
        exact .string s
      · exact word read
      · exact word read
      · unfold readNumeric at read
        split at read
        · obtain ⟨rfl, -⟩ := Prod.mk.inj (Option.some.inj read)
          exact .datetime _
        · split at read
          · obtain ⟨rfl, -⟩ := Prod.mk.inj (Option.some.inj read)
            exact .float _
          · obtain ⟨⟨i, more⟩, inside, made⟩ := Option.map_eq_some_iff.mp read
            obtain ⟨rfl, -⟩ := Prod.mk.inj made
            obtain ⟨low, high⟩ := readInteger_bounds inside
            exact .integer low high

/-- **Every value that is read is bounded**; so are the items of an array and the pairs of a table on one
line.  The induction is on the steps, which each of the three readers takes from the same count. -/
lemma read_bounded (steps : ℕ) :
    (∀ depth cs v rest, readValue steps depth cs = some (v, rest) → v.Bounded)
      ∧ (∀ depth cs items rest, readItems steps depth cs = some (items, rest) → ∀ v ∈ items, v.Bounded)
      ∧ ∀ depth cs pairs rest, readPairs steps depth cs = some (pairs, rest) → ∀ p ∈ pairs, p.2.Bounded := by
  induction steps with
  | zero => exact ⟨nofun, nofun, nofun⟩
  | succ steps ih =>
      obtain ⟨value, items, pairs⟩ := ih
      refine ⟨?_, ?_, ?_⟩
      · intro depth cs v rest read
        rw [readValue.eq_def] at read
        dsimp only at read
        split at read
        · obtain ⟨⟨inside, more⟩, made, read⟩ := Option.bind_eq_some_iff.mp read
          obtain ⟨rfl, -⟩ := Prod.mk.inj (Option.some.inj read)
          exact .array (items _ _ _ _ made)
        · split at read
          · obtain ⟨rfl, -⟩ := Prod.mk.inj (Option.some.inj read)
            exact .table nofun
          · obtain ⟨⟨inside, more⟩, made, read⟩ := Option.bind_eq_some_iff.mp read
            obtain ⟨rows, joined, read⟩ := Option.bind_eq_some_iff.mp read
            obtain ⟨rfl, -⟩ := Prod.mk.inj (Option.some.inj read)
            exact Rows.bounded_table_iff.mpr (Rows.bounded_ofPairs (pairs _ _ _ _ made) joined)
        · exact readScalar_bounded read
      · intro depth cs inside rest read
        rw [readItems] at read
        split at read
        · obtain ⟨rfl, -⟩ := Prod.mk.inj (Option.some.inj read)
          exact nofun
        · obtain ⟨⟨item, more⟩, made, read⟩ := Option.bind_eq_some_iff.mp read
          have first := value _ _ _ _ made
          dsimp only at read
          split at read
          · obtain ⟨⟨others, left⟩, taken, read⟩ := Option.bind_eq_some_iff.mp read
            obtain ⟨rfl, -⟩ := Prod.mk.inj (Option.some.inj read)
            exact List.forall_mem_cons.mpr ⟨first, items _ _ _ _ taken⟩
          · obtain ⟨rfl, -⟩ := Prod.mk.inj (Option.some.inj read)
            exact List.forall_mem_singleton.mpr first
          · contradiction
      · intro depth cs inside rest read
        rw [readPairs] at read
        obtain ⟨⟨key, more⟩, -, read⟩ := Option.bind_eq_some_iff.mp read
        dsimp only at read
        split at read
        · obtain ⟨⟨item, left⟩, made, read⟩ := Option.bind_eq_some_iff.mp read
          have first := value _ _ _ _ made
          dsimp only at read
          split at read
          · obtain ⟨⟨others, left⟩, taken, read⟩ := Option.bind_eq_some_iff.mp read
            obtain ⟨rfl, -⟩ := Prod.mk.inj (Option.some.inj read)
            exact List.forall_mem_cons.mpr ⟨first, pairs _ _ _ _ taken⟩
          · obtain ⟨rfl, -⟩ := Prod.mk.inj (Option.some.inj read)
            exact List.forall_mem_singleton.mpr first
          · contradiction
        · contradiction

/-! ## Lines that are read -/

lemma readLine_bounded {d e : Draft} {cs rest : List Char} (bounded : d.rows.Bounded)
    (read : d.readLine cs = some (e, rest)) : e.rows.Bounded := by
  have pair : ∀ {cs : List Char}, d.readPair cs = some (e, rest) → e.rows.Bounded := by
    intro cs read
    unfold Draft.readPair at read
    obtain ⟨⟨key, more⟩, -, read⟩ := Option.bind_eq_some_iff.mp read
    dsimp only at read
    split at read
    · obtain ⟨⟨v, left⟩, made, read⟩ := Option.bind_eq_some_iff.mp read
      have fits := (read_bounded _).1 _ _ _ _ made
      obtain ⟨left, -, read⟩ := Option.bind_eq_some_iff.mp read
      obtain ⟨_, added, read⟩ := Option.bind_eq_some_iff.mp read
      obtain ⟨rfl, -⟩ := Prod.mk.inj (Option.some.inj read)
      obtain ⟨rows, changed, done⟩ := Option.bind_eq_some_iff.mp added
      rw [← Option.some.inj done]
      exact bounded.descend (fun inner done => inner.assign fits done) changed
    · contradiction
  have header : ∀ {change : String → Rows → Option Rows} {path : List String} {left : List Char},
      (∀ {key : String} {inner made : Rows}, inner.Bounded → change key inner = some made → made.Bounded) →
      (do let made ← d.addHeader change path; some (made, left)) = some (e, rest) → e.rows.Bounded := by
    intro change path left kept read
    obtain ⟨_, added, read⟩ := Option.bind_eq_some_iff.mp read
    obtain ⟨rfl, -⟩ := Prod.mk.inj (Option.some.inj read)
    obtain ⟨key, -, added⟩ := Option.bind_eq_some_iff.mp added
    obtain ⟨rows, changed, done⟩ := Option.bind_eq_some_iff.mp added
    rw [← Option.some.inj done]
    exact bounded.descend kept changed
  unfold Draft.readLine at read
  split at read
  · obtain ⟨rfl, -⟩ := Prod.mk.inj (Option.some.inj read)
    exact bounded
  · unfold Draft.readHeader at read
    split at read
    · obtain ⟨⟨path, more⟩, -, read⟩ := Option.bind_eq_some_iff.mp read
      split at read
      · obtain ⟨left, -, read⟩ := Option.bind_eq_some_iff.mp read
        exact header Rows.Bounded.openElement read
      · contradiction
    · obtain ⟨⟨path, more⟩, -, read⟩ := Option.bind_eq_some_iff.mp read
      split at read
      · obtain ⟨left, -, read⟩ := Option.bind_eq_some_iff.mp read
        exact header Rows.Bounded.openTable read
      · contradiction
  · split_ifs at read
    · obtain ⟨left, -, made⟩ := Option.map_eq_some_iff.mp read
      obtain ⟨rfl, -⟩ := Prod.mk.inj made
      exact bounded
    · exact pair read

/-- **No document holds an integer beyond sixty-four bits.** -/
theorem bounded_of_parse? {text : List Char} {entries : List (String × Value)}
    (read : parse? text = some entries) : (Value.table entries).Bounded := by
  have lines : ∀ (steps : ℕ) {d e : Draft} {cs : List Char}, d.rows.Bounded → d.read steps cs = some e →
      e.rows.Bounded := by
    intro steps
    induction steps with
    | zero => exact nofun
    | succ steps ih =>
        intro d e cs bounded read
        rw [Draft.read] at read
        obtain ⟨⟨next, rest⟩, line, read⟩ := Option.bind_eq_some_iff.mp read
        have kept := readLine_bounded bounded line
        dsimp only at read
        split_ifs at read
        · rwa [← Option.some.inj read]
        · exact ih kept read
  obtain ⟨d, inside, done⟩ := Option.bind_eq_some_iff.mp read
  rw [← Option.some.inj done]
  exact Rows.bounded_table_iff.mpr (lines _ Rows.bounded_nil inside)

end ControlPlane.Toml
