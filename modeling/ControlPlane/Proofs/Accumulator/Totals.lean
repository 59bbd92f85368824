import Mathlib
import ControlPlane.Accumulator.Sink
import ControlPlane.Proofs.Registry.Counters

/-!
# Totals of counters

Several writers add to the counters of an execution, each addition under the lock, so that the additions of all
of them come one after the other in some order.  Sums stop at the ends of their range at every step and not at
the end, and still the order does not matter as long as the values added to a name have one sign: the sums then
move in one direction, and once they have stopped they stay where they are.

* `SinkWrite.on`, `Accumulators.find?_write` — what writes do to one name.
* `Accumulator.total` — what values come to, one after the other; `Accumulator.total_of_sign` — for values of
  one sign this is their sum, clamped once.
* **`Accumulators.totals_in_any_order`** — the counters after additions in any order, and counters that have
  become doubles.
-/

namespace ControlPlane

/-! ## One name -/

lemma Table.mem_names_iff {α : Type} {t : Table α} {name : String} :
    name ∈ t.names ↔ ∃ value, t.find? name = some value := by
  rw [Table.names, List.mem_map]
  constructor
  · rintro ⟨⟨_, value⟩, member, rfl⟩
    exact ⟨value, Table.mem_entries_iff.mp member⟩
  · rintro ⟨value, found⟩
    exact ⟨(name, value), Table.mem_entries_iff.mpr found, rfl⟩

/-- What a write makes of the counter under a name. -/
def SinkWrite.on (name : String) (current : Option Accumulator) : SinkWrite → Option Accumulator
  | add key value => if key = name then some (current.elim value (·.merge value)) else current
  | set key value => if key = name then some value else current

namespace Accumulators

variable {s : Accumulators} {name : String}

lemma find?_apply (w : SinkWrite) : (w.apply s).find? name = w.on name (s.find? name) := by
  cases w with
  | set key value => rw [SinkWrite.apply, SinkWrite.on, Table.find?_insert]
  | add key value =>
      rw [SinkWrite.apply, SinkWrite.on]
      split_ifs with here
      · subst here
        cases s.find? key <;> simp
      · cases s.find? key <;> simp [here]

/-- **Writes to other names do not matter** to a name: what is under it is made of its own writes alone. -/
lemma find?_write (writes : List SinkWrite) :
    (s.write writes).find? name = writes.foldl (SinkWrite.on name) (s.find? name) := by
  induction writes generalizing s with
  | nil => rfl
  | cons w rest ih =>
      rw [write, List.foldl_cons, List.foldl_cons, ← find?_apply]
      exact ih

end Accumulators

/-! ## Whole numbers -/

namespace Accumulator

/-- **The total of values** that are added one after the other.  The first one is the counter that the others
are added to. -/
def total : List ℤ → Option ℤ
  | [] => none
  | first :: more => some (more.foldl (fun sum v => clamp (sum + v)) first)

/-- Values of one sign; zero has either. -/
def OneSign (values : List ℤ) : Prop := (∀ v ∈ values, 0 ≤ v) ∨ ∀ v ∈ values, v ≤ 0

lemma OneSign.tail {v : ℤ} {values : List ℤ} (sign : OneSign (v :: values)) : OneSign values :=
  sign.imp (fun all w member => all w (List.mem_cons_of_mem v member))
    fun all w member => all w (List.mem_cons_of_mem v member)

/-- The first value and the sum of the others point in one direction. -/
lemma OneSign.head {v : ℤ} {values : List ℤ} (sign : OneSign (v :: values)) :
    0 ≤ v ∧ 0 ≤ values.sum ∨ v ≤ 0 ∧ values.sum ≤ 0 := by
  rcases sign with all | all
  · exact .inl ⟨all v List.mem_cons_self,
      List.sum_nonneg fun w member => all w (List.mem_cons_of_mem v member)⟩
  · have bound := List.sum_le_card_nsmul values 0 fun w member => all w (List.mem_cons_of_mem v member)
    exact .inr ⟨all v List.mem_cons_self, by simpa using bound⟩

/-- **Clamping at every step** is clamping once, as long as all values point in one direction. -/
lemma foldl_clamp {values : List ℤ} (sign : OneSign values) {start : ℤ} (range : (long start).InRange) :
    values.foldl (fun sum v => clamp (sum + v)) start = clamp (start + values.sum) := by
  induction values generalizing start with
  | nil =>
      simp only [InRange, minLong, maxLong] at range
      simp only [List.foldl_nil, List.sum_nil, clamp, minLong, maxLong]
      omega
  | cons v values ih =>
      have direction := sign.head
      have next : (long (clamp (start + v))).InRange := InRange.merge (long start) (long v)
      rw [List.foldl_cons, ih sign.tail next, List.sum_cons]
      simp only [InRange, minLong, maxLong] at range
      simp only [clamp, minLong, maxLong]
      omega

/-- Values of one sign come to their sum, clamped once. -/
lemma total_of_sign {values : List ℤ} (sign : OneSign values) (range : ∀ v ∈ values, (long v).InRange)
    (some_value : values ≠ []) : total values = some (clamp values.sum) := by
  cases values with
  | nil => exact absurd rfl some_value
  | cons first more =>
      rw [total, foldl_clamp sign.tail (range first List.mem_cons_self), List.sum_cons]

end Accumulator

namespace Accumulators

variable {name : String}

/-- Additions of whole numbers. -/
def longAdds (adds : List (String × ℤ)) : List SinkWrite := adds.map fun a => .add a.1 (.long a.2)

/-- The values that are added to a name, in their order. -/
def addedTo (name : String) (adds : List (String × ℤ)) : List ℤ :=
  (adds.filter fun a => a.1 = name).map Prod.snd

/-- What a name has when whole numbers are added to one that is there. -/
lemma foldl_longAdds_some (adds : List (String × ℤ)) (start : ℤ) :
    (longAdds adds).foldl (SinkWrite.on name) (some (.long start))
      = some (.long ((addedTo name adds).foldl (fun sum v => Accumulator.clamp (sum + v)) start)) := by
  induction adds generalizing start with
  | nil => rfl
  | cons a rest ih =>
      obtain ⟨key, v⟩ := a
      rw [longAdds, List.map_cons, List.foldl_cons, SinkWrite.on]
      by_cases here : key = name
      · have added : addedTo name ((key, v) :: rest) = v :: addedTo name rest := by simp [addedTo, here]
        rw [if_pos here, added, List.foldl_cons]
        exact ih _
      · have skipped : addedTo name ((key, v) :: rest) = addedTo name rest := by simp [addedTo, here]
        rw [if_neg here, skipped]
        exact ih start

/-- What a name has when whole numbers are added, and it is not there. -/
lemma foldl_longAdds_none (adds : List (String × ℤ)) :
    (longAdds adds).foldl (SinkWrite.on name) none
      = (Accumulator.total (addedTo name adds)).map .long := by
  induction adds with
  | nil => rfl
  | cons a rest ih =>
      obtain ⟨key, v⟩ := a
      rw [longAdds, List.map_cons, List.foldl_cons, SinkWrite.on]
      by_cases here : key = name
      · have added : addedTo name ((key, v) :: rest) = v :: addedTo name rest := by simp [addedTo, here]
        rw [if_pos here, added]
        exact foldl_longAdds_some rest v
      · have skipped : addedTo name ((key, v) :: rest) = addedTo name rest := by simp [addedTo, here]
        rw [if_neg here, skipped]
        exact ih

lemma find?_longAdds (adds : List (String × ℤ)) :
    (write .empty (longAdds adds)).find? name = (Accumulator.total (addedTo name adds)).map .long := by
  rw [find?_write]
  exact foldl_longAdds_none adds

/-- A name has values exactly when it is among the names that are added to. -/
lemma addedTo_ne_nil_iff {adds : List (String × ℤ)} : addedTo name adds ≠ [] ↔ name ∈ adds.map Prod.fst := by
  simp [addedTo, List.filter_eq_nil_iff]

/-! ## Doubles -/

/-- **A double stays a double** as long as nothing is put in its place. -/
lemma foldl_on_double {writes : List SinkWrite} (kept : ∀ value, SinkWrite.set name value ∉ writes) (d : Double) :
    ∃ d', writes.foldl (SinkWrite.on name) (some (.double d)) = some (.double d') := by
  induction writes generalizing d with
  | nil => exact ⟨d, rfl⟩
  | cons w rest ih =>
      have later : ∀ value, SinkWrite.set name value ∉ rest := fun value member =>
        kept value (List.mem_cons_of_mem w member)
      have first : ∃ e, SinkWrite.on name (some (.double d)) w = some (.double e) := by
        cases w with
        | add key value =>
            rw [SinkWrite.on]
            split_ifs
            · cases value
              · exact ⟨_, rfl⟩
              · exact ⟨_, rfl⟩
            · exact ⟨d, rfl⟩
        | set key value =>
            have other : key ≠ name := by
              rintro rfl
              exact kept value List.mem_cons_self
            exact ⟨d, by rw [SinkWrite.on, if_neg other]⟩
      obtain ⟨e, same⟩ := first
      rw [List.foldl_cons, same]
      exact ih later e

/-- A double that is added makes a double of what is there. -/
lemma on_add_double (current : Option Accumulator) (d : Double) :
    ∃ d', SinkWrite.on name current (.add name (.double d)) = some (.double d') := by
  rw [SinkWrite.on, if_pos rfl]
  rcases current with _ | _ | _
  · exact ⟨d, rfl⟩
  · exact ⟨_, rfl⟩
  · exact ⟨_, rfl⟩

/-! ## Any order -/

/-- **The counters after additions in any order.**  There are the names that were added to; what a name has is
made of the values added to it; values of one sign come to their sum, clamped once; and a counter to which a
double was added stays a double, whatever is written to other names and added to its own. -/
theorem totals_in_any_order {adds order : List (String × ℤ)}
    (range : ∀ a ∈ adds, (Accumulator.long a.2).InRange) (same : order.Perm adds) :
    (∀ name, name ∈ (write .empty (longAdds order)).names ↔ name ∈ adds.map Prod.fst)
    ∧ (∀ name, (write .empty (longAdds order)).find? name
        = (Accumulator.total (addedTo name order)).map .long)
    ∧ (∀ name ∈ adds.map Prod.fst, Accumulator.OneSign (addedTo name adds) →
        (write .empty (longAdds order)).find? name
          = some (.long (Accumulator.clamp (addedTo name adds).sum)))
    ∧ ∀ (start : Accumulators) (name : String) (d : Double) (before after : List SinkWrite),
        (∀ value, SinkWrite.set name value ∉ after) →
        ∃ d', (start.write (before ++ .add name (.double d) :: after)).find? name = some (.double d') := by
  have values : ∀ name, (addedTo name order).Perm (addedTo name adds) := fun name =>
    (same.filter _).map Prod.snd
  refine ⟨fun name => ?_, fun name => find?_longAdds order, fun name here sign => ?_, ?_⟩
  · rw [Table.mem_names_iff, find?_longAdds, (same.map Prod.fst).mem_iff.symm, ← addedTo_ne_nil_iff]
    cases addedTo name order with
    | nil => simp [Accumulator.total]
    | cons first more => simp [Accumulator.total]
  · have some_value : addedTo name order ≠ [] := fun none =>
      addedTo_ne_nil_iff.mpr here (List.perm_nil.mp (none ▸ (values name).symm))
    have sign' : Accumulator.OneSign (addedTo name order) :=
      sign.imp (fun all v member => all v ((values name).mem_iff.mp member))
        fun all v member => all v ((values name).mem_iff.mp member)
    have range' : ∀ v ∈ addedTo name order, (Accumulator.long v).InRange := by
      intro v member
      obtain ⟨a, added, rfl⟩ := List.mem_map.mp ((values name).mem_iff.mp member)
      exact range a (List.mem_of_mem_filter added)
    rw [find?_longAdds, Accumulator.total_of_sign sign' range' some_value, (values name).sum_eq]
    rfl
  · intro start name d before after kept
    obtain ⟨e, added⟩ := on_add_double (before.foldl (SinkWrite.on name) (start.find? name)) d
    rw [find?_write, List.foldl_append, List.foldl_cons, added]
    exact foldl_on_double kept e

/-- Rows that fill their counter, with something else between them. -/
def fullRows : List (String × ℤ) := [("rows", 5), ("lost", -2), ("rows", Accumulator.maxLong)]

/-- A counter that has come to the end of its range stays there, in whatever order, and a share of rows is still
one after a whole number has been added. -/
theorem full_rows_any_order :
    fullRows.reverse.Perm fullRows
    ∧ (write .empty (longAdds fullRows.reverse)).find? "rows" = some (.long Accumulator.maxLong)
    ∧ ∃ d, (write .empty [.add "share" (.double ⟨0x3FE0000000000000⟩), .set "rows" (.long 1),
        .add "share" (.long 1)]).find? "share" = some (.double d) := by
  have range : ∀ a ∈ fullRows, (Accumulator.long a.2).InRange := by
    simp [fullRows, Accumulator.InRange, Accumulator.minLong, Accumulator.maxLong]
  obtain ⟨-, -, whole, doubles⟩ := totals_in_any_order range (List.reverse_perm fullRows)
  refine ⟨List.reverse_perm fullRows, ?_, ?_⟩
  · exact whole "rows" (by decide) (.inl (by decide))
  · exact doubles .empty "share" _ [] [.set "rows" (.long 1), .add "share" (.long 1)] (by simp)

end Accumulators

end ControlPlane
