import Mathlib
import ControlPlane.Proofs.Json.Text
import ControlPlane.Registry.Store

/-!
# Records survive the store

A record is kept as the bytes of its JSON text.  What is written of a record whose numbers fit in
their words is read back as it was.

* `Json.table_tree`, `Json.word_tree` — the parts of a record.
* `Record.decoder_tree` — the record, from the tree of its JSON value.
* `Row.decode_record` — the record, from the bytes.
-/

namespace ControlPlane

/-! ## Tables -/

namespace Table

variable {α : Type u}

lemma insertEntry_append {name : String} {value : α} {entries : List (String × α)}
    (h : ∀ e ∈ entries, e.1 < name) : insertEntry name value entries = entries ++ [(name, value)] := by
  induction entries with
  | nil => rfl
  | cons head rest ih =>
      obtain ⟨key, old⟩ := head
      have lt : key < name := h (key, old) List.mem_cons_self
      have notLt : ¬name < key := fun gt => String.lt_irrefl _ (String.lt_trans lt gt)
      rw [insertEntry, if_neg notLt, if_neg (ne_of_lt lt).symm,
        ih fun e he => h e (List.mem_cons_of_mem _ he), List.cons_append]

lemma entries_insertMany (t : Table α) (pairs : List (String × α))
    (h : (t.entries ++ pairs).Pairwise fun a b => a.1 < b.1) :
    (t.insertMany pairs).entries = t.entries ++ pairs := by
  induction pairs generalizing t with
  | nil => simp [insertMany]
  | cons p pairs ih =>
      have step : (t.insert p.1 p.2).entries = t.entries ++ [p] :=
        insertEntry_append fun e he => (List.pairwise_append.mp h).2.2 e he p List.mem_cons_self
      have rest : ((t.insert p.1 p.2).entries ++ pairs).Pairwise fun a b => a.1 < b.1 := by
        rwa [step, List.append_assoc, List.singleton_append]
      have tail := ih (t.insert p.1 p.2) rest
      rw [step, List.append_assoc, List.singleton_append] at tail
      exact tail

lemma ofList_entries (t : Table α) : ofList t.entries = t := by
  have eq := entries_insertMany empty t.entries (by simpa [empty] using t.ordered)
  obtain ⟨entries, ordered⟩ := t
  unfold ofList
  cases h : (empty : Table α).insertMany entries with
  | mk e o =>
    rw [h] at eq
    simp only [empty, List.nil_append] at eq
    subst eq
    rfl

/-- **What is found after insertions** is what they would have made of nothing, or was there before. -/
lemma find?_insertMany (t : Table α) (pairs : List (String × α)) (name : String) :
    (t.insertMany pairs).find? name = ((ofList pairs).find? name).or (t.find? name) := by
  unfold ofList insertMany
  induction pairs generalizing t with
  | nil => rfl
  | cons p rest ih =>
      rw [List.foldl_cons, List.foldl_cons, ih (t.insert p.1 p.2), ih (empty.insert p.1 p.2), find?_insert,
        find?_insert]
      split_ifs
      · rw [Option.or_assoc]
        rfl
      · simp

/-- Insertions that have been made make no difference. -/
lemma insertMany_again (t : Table α) (pairs : List (String × α)) :
    (t.insertMany pairs).insertMany pairs = t.insertMany pairs := by
  refine ext_find? fun name => ?_
  rw [find?_insertMany, find?_insertMany t]
  cases (ofList pairs).find? name <;> rfl

/-- A value under a name takes the place of another. -/
lemma insert_again (t : Table α) (name : String) (old new : α) :
    (t.insert name old).insert name new = t.insert name new := by
  refine ext_find? fun key => ?_
  simp only [find?_insert]
  split_ifs <;> rfl

/-- What is found after the entries of a table have been inserted. -/
lemma find?_insertMany_entries (t u : Table α) (name : String) :
    (t.insertMany u.entries).find? name = (u.find? name).or (t.find? name) := by
  rw [find?_insertMany, ofList_entries]

/-- A new name makes one more entry. -/
lemma size_insert {t : Table α} {name : String} (absent : t.find? name = none) (value : α) :
    (t.insert name value).size = t.size + 1 := by
  obtain ⟨entries, ordered⟩ := t
  simp only [Table.find?, Table.size, Table.insert] at absent ⊢
  clear ordered
  induction entries with
  | nil => rfl
  | cons e rest ih =>
      obtain ⟨key, old⟩ := e
      simp only [lookup] at absent
      split_ifs at absent with same
      simp only [insertEntry]
      split_ifs with less here
      · rfl
      · exact absurd here.symm same
      · rw [List.length_cons, ih absent, List.length_cons]

end Table

/-! ## The parts of a record -/

namespace Json

lemma tableMembers_memberTrees {d : Tree → Except Fault α} {f : α → Value}
    {entries : List (String × α)} (h : ∀ e ∈ entries, d (f e.2).tree = .ok e.2) :
    Decoder.tableMembers d (memberTrees (entries.map fun e => (e.1, f e.2))) = .ok entries := by
  induction entries with
  | nil => rfl
  | cons head rest ih =>
      obtain ⟨key, value⟩ := head
      have first := h (key, value) List.mem_cons_self
      have others := ih fun e he => h e (List.mem_cons_of_mem _ he)
      simp only at first
      simp [memberTrees, Decoder.tableMembers, first, others, bind, Except.bind, pure, Except.pure]

lemma table_tree {d : Decoder α} {f : α → Value} {depth : ℕ} (t : Table α)
    (h : ∀ e ∈ t.entries, d (depth + 1) (f e.2).tree = .ok e.2) :
    Decoder.table d (depth + 2) (Value.object (t.map f).entries).tree = .ok t := by
  have members := tableMembers_memberTrees h
  simp only [Value.tree, Table.map, Decoder.table, enter, bind, Except.bind, members, pure,
    Except.pure, Table.ofList_entries]

lemma word_tree {width n : ℕ} (fits : n < 2 ^ width) (small : width ≤ 64) (depth : ℕ) :
    Decoder.word width depth (Value.number (.int n)).tree = .ok n := by
  have bound : n < 2 ^ 64 := lt_of_lt_of_le fits (Nat.pow_le_pow_right (by omega) small)
  have isWord : IsWord n := ⟨by omega, by omega⟩
  have inRange : (n : ℤ) < 2 ^ width := by exact_mod_cast fits
  simp [Value.tree, Number.tree_int isWord, Decoder.word, Decoder.integer, inRange, Except.map]

end Json

/-- The numbers of the settings fit in their words. -/
def JobConfig.Fits (c : JobConfig) : Prop := c.parallelism < 2 ^ 32 ∧ c.chunkSize < 2 ^ 32

lemma JobConfig.decoder_tree {c : JobConfig} (h : c.Fits) (depth : ℕ) :
    JobConfig.decoder (depth + 3) c.toJson.tree = .ok c := by
  obtain ⟨p, q⟩ := h
  have first := Json.word_tree p (by omega) (depth + 2)
  have second := Json.word_tree q (by omega) (depth + 2)
  have third : Json.Decoder.table Json.Decoder.string (depth + 2)
      (Json.Value.object (c.properties.map Json.Value.string).entries).tree = .ok c.properties :=
    Json.table_tree c.properties fun e _ => rfl
  simp only [toJson, decoder, Json.Value.tree, Json.memberTrees, Json.Decoder.record, Json.enter] at *
  simp [Json.Decoder.recordMembers, Json.Decoder.check, first, second, third, bind, Except.bind, pure,
    Except.pure, List.lookup, Json.Ending.strict, Json.Decoder.Fields.orElse]

lemma JobStatus.decoder_tree (s : JobStatus) (depth : ℕ) :
    JobStatus.decoder depth (Json.Value.string s.name).tree = .ok s := by
  cases s <;> rfl

/-! ## Records -/

namespace Record

/-- The numbers of a record fit in their words. -/
structure Fits (r : Record) : Prop where
  config : r.config.Fits
  createdAt : r.createdAt < 2 ^ 64
  updatedAt : r.updatedAt < 2 ^ 64

lemma decoder_tree {r : Record} (h : r.Fits) (depth : ℕ) :
    Record.decoder (depth + 4) r.toJson.tree = .ok r := by
  obtain ⟨name, settings, state, started, failure, created, updated⟩ := r
  have config := JobConfig.decoder_tree h.config depth
  have status := JobStatus.decoder_tree state (depth + 3)
  have createdAt := Json.word_tree h.createdAt (by omega) (depth + 3)
  have updatedAt := Json.word_tree h.updatedAt (by omega) (depth + 3)
  rw [toJson, Json.Value.tree, decoder]
  simp only [Json.memberTrees, Json.Decoder.record, Json.enter]
  simp only [Json.Value.tree] at status createdAt updatedAt
  cases failure <;>
    simp [Json.Decoder.recordMembers, Json.Decoder.check, Json.Decoder.string, Json.Decoder.bool,
      config, status, createdAt, updatedAt, bind, Except.bind, pure, Except.pure, Except.map,
      List.lookup, Json.Ending.strict, Json.Decoder.Fields.required, Json.Decoder.Fields.optional,
      Json.Decoder.optional, Json.Value.tree]

end Record

/-! ## Numbers that are read as they are written -/

namespace Json

lemma allInMembers_map {P : Number → Prop} {f : α → Value} {entries : List (String × α)}
    (h : ∀ e ∈ entries, (f e.2).AllNumbers P) :
    AllInMembers P (entries.map fun e => (e.1, f e.2)) := by
  induction entries with
  | nil => trivial
  | cons head rest ih =>
      obtain ⟨key, value⟩ := head
      exact ⟨h (key, value) List.mem_cons_self, ih fun e he => h e (List.mem_cons_of_mem _ he)⟩

lemma isWord_of_lt {n : ℕ} (h : n < 2 ^ 64) : IsWord n := ⟨by omega, by omega⟩

end Json

lemma JobConfig.allNumbers {c : JobConfig} (h : c.Fits) :
    c.toJson.AllNumbers Json.Number.Stands := by
  have parallelism := Json.isWord_of_lt (lt_trans h.1 (by norm_num))
  have chunkSize := Json.isWord_of_lt (lt_trans h.2 (by norm_num))
  have properties : Json.AllInMembers Json.Number.Stands
      (c.properties.map Json.Value.string).entries :=
    Json.allInMembers_map fun e _ => trivial
  exact ⟨Json.Number.stands_int parallelism, Json.Number.stands_int chunkSize, properties, trivial⟩

lemma Record.allNumbers {r : Record} (h : r.Fits) : r.toJson.AllNumbers Json.Number.Stands := by
  have created := Json.Number.stands_int (Json.isWord_of_lt h.createdAt)
  have updated := Json.Number.stands_int (Json.isWord_of_lt h.updatedAt)
  refine ⟨trivial, JobConfig.allNumbers h.config, trivial, trivial, ?_, created, updated, trivial⟩
  cases r.failure <;> trivial

/-! ## Rows -/

namespace Row

/-- A row is decoded as its text is. -/
lemma decode_text (v : Json.Value) (d : Json.Decoder α) :
    decode d (of v) = (Json.decode d v.text.toList).mapError .codec := by
  have utf8 : String.fromUTF8? v.text.toUTF8 = some v.text := by
    simp [String.fromUTF8?, String.fromUTF8, v.text.isValidUTF8]
  simp only [decode, of, utf8]
  cases Json.decode d v.text.toList <;> rfl

/-- A row can be read exactly when its text can. -/
lemma decode_eq_ok_iff {d : Json.Decoder α} {v : Json.Value} {a : α} :
    decode d (of v) = .ok a ↔ Json.decode d v.text.toList = .ok a := by
  rw [decode_text]
  rcases Json.decode d v.text.toList with fault | b <;> simp [Except.mapError]

/-- A row is decoded as the tree that its text has been written from. -/
lemma decode_of {v : Json.Value} (h : v.AllNumbers Json.Number.Stands) (d : Json.Decoder α) :
    decode d (of v) = (d (Json.maxDepth + 1) v.tree).mapError .codec := by
  have chars : v.text.toList = v.chars := by simp [Json.Value.text]
  rw [decode_text, chars, Json.decode_chars h]

/-- **Records survive the store.** -/
theorem decode_record {r : Record} (h : r.Fits) : decode Record.decoder (of r.toJson) = .ok r := by
  rw [decode_of (Record.allNumbers h), show Json.maxDepth + 1 = 124 + 4 from rfl,
    Record.decoder_tree h]
  rfl

end Row

end ControlPlane
