import Mathlib
import ControlPlane.Proofs.Json.Doubles
import ControlPlane.Proofs.Registry.Row

/-!
# Which counters come back from the store

The counters of an execution are stored as the text of one object.  Their names and the whole numbers
among them always come back.  A double comes back as the reader makes it of its text: with two roundings,
and not at all when it is not finite, because then its text is null.

* `Json.Number.stands_nonfinite` — a double that is not finite takes part in what is known about texts.
* `Accumulator.InRange` — the whole numbers that a counter can hold; sums stay among them.
* `Double.reread`, `Accumulator.reread`, `Accumulators.reread` — what comes back.
* `Accumulators.decode_row` — reading the row of some counters is rereading them.
* `Accumulators.reread_eq_self_iff`, `reread_ok`, `reread_error` — what this means for their values.
-/

namespace ControlPlane

/-! ## Doubles that are not finite -/

namespace Json

lemma scan_null (steps : ℕ) (rest : List Char) :
    scan (steps + 1) ("null".toList ++ rest) = (.null, some rest) := by
  simp [scan, skipGap, isGap, scanWord, readWord]

variable {x : Double}

lemma Number.chars_nonfinite (infinite : x.isFinite = false) :
    (Number.double x).chars = "null".toList := by
  rw [chars, if_neg (by simp [infinite])]

lemma Number.tree_nonfinite (infinite : x.isFinite = false) : (Number.double x).tree = .null := by
  have scanned := scan_null (4 * "null".toList.length + 3) []
  rw [List.append_nil] at scanned
  rw [Number.tree, chars_nonfinite infinite, Tree.ofText, scanned]

lemma Number.stands_nonfinite (infinite : x.isFinite = false) : (Number.double x).Stands where
  begins := ⟨'n', "ull".toList, by rw [chars_nonfinite infinite]; rfl, by decide, by decide⟩
  scan_eq := by
    intro steps rest _
    rw [tree_nonfinite infinite, chars_nonfinite infinite]
    exact scan_null steps rest

/-- Every double stands for itself or for null. -/
lemma Number.stands (x : Double) : (Number.double x).Stands := by
  cases finite : x.isFinite with
  | true => exact stands_double finite
  | false => exact stands_nonfinite finite

end Json

/-! ## Entries -/

/-- An entry of a table is what its name is looked up as. -/
lemma Table.mem_entries_iff {α : Type} {t : Table α} {name : String} {value : α} :
    (name, value) ∈ t.entries ↔ t.find? name = some value := by
  obtain ⟨entries, ordered⟩ := t
  show _ ↔ Table.lookup name entries = some value
  induction entries with
  | nil => simp [Table.lookup]
  | cons e rest ih =>
      obtain ⟨key, other⟩ := e
      obtain ⟨first, later⟩ := List.pairwise_cons.mp ordered
      have found : (name, value) ∈ rest ↔ Table.lookup name rest = some value := ih later
      rw [List.mem_cons, found, Table.lookup]
      split_ifs with here
      · subst here
        rw [Table.lookup_eq_none_of_lt first]
        simp [eq_comm]
      · simp [Ne.symm here]

/-- A computation for each item of a list succeeds when all of them do. -/
lemma List.mapM_eq_ok_iff {α β ε : Type} {f : α → Except ε β} {items : List α} {results : List β} :
    items.mapM f = .ok results ↔ List.Forall₂ (fun a b => f a = .ok b) items results := by
  induction items generalizing results with
  | nil => cases results <;> simp [pure, Except.pure]
  | cons a rest ih =>
      rw [List.mapM_cons, List.forall₂_cons_left_iff]
      simp only [← ih]
      rcases f a with e | b
      · simp [bind, Except.bind]
      · rcases rest.mapM f with e | bs <;> simp [bind, Except.bind, pure, Except.pure, eq_comm]

/-- It fails as one of them does. -/
lemma List.exists_of_mapM_eq_error {α β ε : Type} {f : α → Except ε β} {items : List α} {e : ε}
    (failed : items.mapM f = .error e) : ∃ a ∈ items, f a = .error e := by
  induction items with
  | nil => simp [pure, Except.pure] at failed
  | cons a rest ih =>
      rw [List.mapM_cons] at failed
      rcases first : f a with e' | b
      · rw [first] at failed
        obtain rfl : e' = e := by simpa [bind, Except.bind] using failed
        exact ⟨a, List.mem_cons_self, first⟩
      · rcases others : rest.mapM f with e' | bs
        · rw [first, others] at failed
          obtain rfl : e' = e := by simpa [bind, Except.bind] using failed
          obtain ⟨o, member, same⟩ := ih others
          exact ⟨o, List.mem_cons_of_mem a member, same⟩
        · simp [first, others, bind, Except.bind, pure, Except.pure] at failed

/-! ## Counters -/

/-- A double is read without regard to brackets. -/
lemma Json.Decoder.double_depth (depth : ℕ) (t : Tree) : double depth t = double 0 t := by
  cases t with
  | number result => rcases result with fault | i | x <;> rfl
  | null | bool _ | string _ | array _ | object _ | broken _ _ _ => rfl

/-- **What a double is read back as.** -/
def Double.reread (x : Double) : Except Json.Fault Double :=
  Json.Decoder.double 0 (Json.Number.double x).tree

/-- What is not finite is not read back. -/
lemma Double.reread_nonfinite {x : Double} (infinite : x.isFinite = false) :
    x.reread = .error .mismatched := by
  rw [reread, Json.Number.tree_nonfinite infinite]
  rfl

namespace Accumulator

/-- A counter that can be held: a whole number of sixty-four bits, or any double. -/
def InRange : Accumulator → Prop
  | long n => minLong ≤ n ∧ n ≤ maxLong
  | double _ => True

/-- What a counter is read back as. -/
def reread : Accumulator → Except Json.Fault Accumulator
  | long n => .ok (long n)
  | double x => x.reread.map double

lemma InRange.merge (a b : Accumulator) : (a.merge b).InRange := by
  cases a <;> cases b <;> simp only [Accumulator.merge, InRange]
  unfold clamp minLong maxLong
  omega

lemma allNumbers {a : Accumulator} (range : a.InRange) :
    a.toJson.AllNumbers Json.Number.Stands := by
  cases a with
  | long n =>
      have word : Json.IsWord n := by
        obtain ⟨low, high⟩ := range
        unfold minLong at low
        unfold maxLong at high
        exact ⟨low, by omega⟩
      exact ⟨trivial, Json.Number.stands_int word, trivial⟩
  | double x => exact ⟨trivial, Json.Number.stands x, trivial⟩

/-- **A counter is read by its kind**, a double as its text is. -/
lemma decoder_tree {a : Accumulator} (range : a.InRange) (depth : ℕ) :
    decoder (depth + 2) a.toJson.tree = a.reread := by
  cases a with
  | long n =>
      obtain ⟨low, high⟩ := range
      have word : Json.IsWord n := by
        unfold minLong at low
        unfold maxLong at high
        exact ⟨low, by omega⟩
      have value : Json.Decoder.integer minLong maxLong (depth + 1) (Json.Number.int n).tree = .ok n := by
        simp [Json.Number.tree_int word, Json.Decoder.integer, low, high]
      simp [toJson, Json.Value.tree, Json.memberTrees, decoder, Json.Decoder.tagged, Json.enter,
        Json.Decoder.taggedMembers, Json.Decoder.choice, Json.Decoder.named, value, Json.Ending.strict,
        reread, bind, Except.bind, Except.map]
  | double x =>
      have value : Json.Decoder.double (depth + 1) (Json.Number.double x).tree = x.reread :=
        Json.Decoder.double_depth _ _
      simp only [toJson, Json.Value.tree, Json.memberTrees, decoder, Json.Decoder.tagged, Json.enter,
        reread]
      rcases read : x.reread with fault | y <;>
        simp [Json.Decoder.taggedMembers, Json.Decoder.choice, Json.Decoder.named, value, read,
          Json.Ending.strict, List.lookup, bind, Except.bind, Except.map]

end Accumulator

namespace Accumulators

/-- All counters can be held. -/
def InRange (s : Accumulators) : Prop := ∀ name a, s.find? name = some a → a.InRange

lemma InRange.empty : InRange .empty := by simp [InRange]

lemma InRange.insert {s : Accumulators} (range : s.InRange) (name : String) {a : Accumulator}
    (new : a.InRange) : InRange (s.insert name a) := by
  intro key b found
  rw [Table.find?_insert] at found
  split_ifs at found
  · exact Option.some.inj found ▸ new
  · exact range key b found

lemma InRange.entries {s : Accumulators} (range : s.InRange) : ∀ e ∈ s.entries, e.2.InRange :=
  fun e member => range e.1 e.2 (Table.mem_entries_iff.mp member)

/-- An entry with its counter read back. -/
def rereadEntry (e : String × Accumulator) : Except Json.Fault (String × Accumulator) :=
  e.2.reread.map fun a => (e.1, a)

/-- **What counters are read back as.** -/
def reread (s : Accumulators) : Except Json.Fault Accumulators :=
  (s.entries.mapM rereadEntry).map Table.ofList

lemma rereadEntry_eq_ok {e o : String × Accumulator} :
    rereadEntry e = .ok o ↔ o.1 = e.1 ∧ e.2.reread = .ok o.2 := by
  obtain ⟨name, a⟩ := o
  rw [rereadEntry]
  rcases e.2.reread with fault | b <;> simp [Except.map, eq_comm]

/-- The members of a text of counters, each of them read back. -/
lemma tableMembers_memberTrees {entries : List (String × Accumulator)} (depth : ℕ)
    (range : ∀ e ∈ entries, e.2.InRange) :
    Json.Decoder.tableMembers (Accumulator.decoder (depth + 2))
      (Json.memberTrees (entries.map fun e => (e.1, e.2.toJson))) = entries.mapM rereadEntry := by
  induction entries with
  | nil => rfl
  | cons e rest ih =>
      have first := Accumulator.decoder_tree (range e List.mem_cons_self) depth
      have others := ih fun o member => range o (List.mem_cons_of_mem e member)
      rw [List.mapM_cons, ← others, rereadEntry, ← first]
      simp only [List.map_cons, Json.memberTrees, Json.Decoder.tableMembers]
      rcases Accumulator.decoder (depth + 2) e.2.toJson.tree with fault | a <;> rfl

lemma allNumbers {s : Accumulators} (range : s.InRange) :
    s.toJson.AllNumbers Json.Number.Stands := by
  have inner : ∀ entries : List (String × Accumulator), (∀ e ∈ entries, e.2.InRange) →
      Json.AllInMembers Json.Number.Stands (entries.map fun e => (e.1, e.2.toJson)) := by
    intro entries all
    induction entries with
    | nil => trivial
    | cons e rest ih =>
        exact ⟨Accumulator.allNumbers (all e List.mem_cons_self),
          ih fun o member => all o (List.mem_cons_of_mem e member)⟩
  exact inner s.entries range.entries

/-- **Counters are read** each by its kind. -/
lemma decoder_tree {s : Accumulators} (range : s.InRange) (depth : ℕ) :
    decoder (depth + 3) s.toJson.tree = s.reread := by
  have members := tableMembers_memberTrees depth range.entries
  simp only [toJson, Json.Value.tree, Table.map, decoder, Json.Decoder.table, Json.enter, bind,
    Except.bind, members, reread]
  rcases s.entries.mapM rereadEntry with fault | entries <;> rfl

/-- **The row of some counters** holds what they are read back as. -/
theorem decode_row {s : Accumulators} (range : s.InRange) :
    Row.decode decoder (.of s.toJson) = s.reread.mapError .codec := by
  rw [Row.decode_of (allNumbers range), show Json.maxDepth + 1 = 125 + 3 from rfl,
    decoder_tree range]

/-! ### What changes on the way -/

/-- The names of entries are not changed. -/
lemma names_of_rereadEntry {entries results : List (String × Accumulator)}
    (all : List.Forall₂ (fun e o => rereadEntry e = .ok o) entries results) :
    results.map (·.1) = entries.map (·.1) := by
  induction all with
  | nil => rfl
  | cons first others ih => rw [List.map_cons, List.map_cons, ih, (rereadEntry_eq_ok.mp first).1]

/-- Each counter is found again, as what it is read back as. -/
lemma lookup_of_rereadEntry {entries results : List (String × Accumulator)}
    (all : List.Forall₂ (fun e o => rereadEntry e = .ok o) entries results) {name : String}
    {a : Accumulator} (found : Table.lookup name entries = some a) :
    ∃ b, a.reread = .ok b ∧ Table.lookup name results = some b := by
  induction all with
  | nil => simp [Table.lookup] at found
  | @cons e o rest others first later ih =>
      obtain ⟨same, read⟩ := rereadEntry_eq_ok.mp first
      rw [Table.lookup] at found ⊢
      split_ifs at found with here
      · obtain rfl := Option.some.inj found
        exact ⟨o.2, read, if_pos (same.trans here)⟩
      · rw [if_neg (same ▸ here)]
        exact ih found

/-- Counters are read back when each of them is. -/
lemma reread_eq_ok_iff {s t : Accumulators} :
    s.reread = .ok t ↔ List.Forall₂ (fun e o => rereadEntry e = .ok o) s.entries t.entries := by
  have ordered : ∀ {results}, List.Forall₂ (fun e o => rereadEntry e = .ok o) s.entries results →
      (Table.ofList results).entries = results := by
    intro results all
    have names : (results.map (·.1)).Pairwise (· < ·) := by
      rw [names_of_rereadEntry all]
      exact List.pairwise_map.mpr s.ordered
    exact congrArg Table.entries (Table.ofList_entries ⟨results, List.pairwise_map.mp names⟩)
  rw [reread]
  constructor
  · intro read
    rcases each : s.entries.mapM rereadEntry with fault | results
    · simp [each, Except.map] at read
    · rw [each] at read
      obtain rfl : Table.ofList results = t := by simpa [Except.map] using read
      have all := List.mapM_eq_ok_iff.mp each
      rwa [ordered all]
  · intro all
    rw [List.mapM_eq_ok_iff.mpr all]
    exact congrArg _ (Table.ofList_entries t)

/-- **Counters come back as they are** when their doubles do. -/
theorem reread_eq_self_iff {s : Accumulators} :
    s.reread = .ok s ↔ ∀ name x, s.find? name = some (.double x) → x.reread = .ok x := by
  rw [reread_eq_ok_iff, List.forall₂_same]
  constructor
  · intro all name x found
    obtain ⟨-, read⟩ := rereadEntry_eq_ok.mp (all _ (Table.mem_entries_iff.mpr found))
    rcases again : x.reread with fault | y
    · simp [Accumulator.reread, again, Except.map] at read
    · obtain rfl : y = x := by simpa [Accumulator.reread, again, Except.map] using read
      rfl
  · rintro doubles ⟨name, a⟩ member
    refine rereadEntry_eq_ok.mpr ⟨rfl, ?_⟩
    cases a with
    | long n => rfl
    | double x => simp [Accumulator.reread, doubles name x (Table.mem_entries_iff.mp member), Except.map]

/-- **Counters that come back** have the same names, and each is what it is read back as. -/
theorem reread_ok {s t : Accumulators} (read : s.reread = .ok t) :
    t.names = s.names
      ∧ ∀ name a, s.find? name = some a → ∃ b, a.reread = .ok b ∧ t.find? name = some b := by
  have all := reread_eq_ok_iff.mp read
  exact ⟨names_of_rereadEntry all, fun name a found => lookup_of_rereadEntry all found⟩

/-- **Counters that do not come back** have a double among them that does not. -/
theorem reread_error {s : Accumulators} {fault : Json.Fault} (failed : s.reread = .error fault) :
    ∃ name x, s.find? name = some (.double x) ∧ x.reread = .error fault := by
  rcases each : s.entries.mapM rereadEntry with fault' | results
  · obtain rfl : fault' = fault := by simpa [reread, each, Except.map] using failed
    obtain ⟨⟨name, a⟩, member, wrong⟩ := List.exists_of_mapM_eq_error each
    cases a with
    | long n => simp [rereadEntry, Accumulator.reread, Except.map] at wrong
    | double x =>
        refine ⟨name, x, Table.mem_entries_iff.mp member, ?_⟩
        rcases read : x.reread with fault'' | y <;>
          simp_all [rereadEntry, Accumulator.reread, Except.map]
  · simp [reread, each, Except.map] at failed

end Accumulators

end ControlPlane
