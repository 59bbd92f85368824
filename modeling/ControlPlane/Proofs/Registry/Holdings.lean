import Mathlib
import ControlPlane.Proofs.Registry.Graphs
import ControlPlane.Proofs.Registry.Order
import ControlPlane.Proofs.Registry.Resources

/-!
# The store as plain maps

The store keeps texts: every value is written as a row and decoded anew when it is asked for, the
resources of all jobs stand in one table under keys made of two names, and a removal looks through
all of them.  What it answers is what maps would answer that hold the values themselves.

* `Holdings` — the maps.
* `Transaction` — what can be done to a store, and to the maps.
* `Store.Shows` — a store answers as the maps do.
* `Store.Represents` — the rows of a store are those of the values; every transaction keeps this.
* `Transaction.run_shows` — after any transactions on an empty store, it answers as the maps do.
-/

namespace ControlPlane

/-! ## Maps and transactions -/

/-- **What a store is meant to hold**: the values themselves, by job, and the resources by job and
by name. -/
structure Holdings where
  records : String → Option Record
  resources : String → String → Option Resource
  graphs : String → Option Graph
  accumulators : String → Option Accumulators

/-- A transaction that changes a store, or its closing and opening. -/
inductive Transaction where
  | putJob (r : Record)
  | putResources (job : String) (rs : List Resource)
  | putGraph (job : String) (g : Graph)
  | putAccumulators (job : String) (a : Accumulators)
  | purge (job : String)
  | reopen

namespace Transaction

/-- **What is put can be kept**: numbers fit in their words, names of resources have no colon, and
the texts of graphs and of counters are decoded to what they have been made of. -/
def Keepable : Transaction → Prop
  | putJob r => r.Fits
  | putResources _ rs => ∀ r ∈ rs, ':' ∉ r.name.toList
  | putGraph _ g => Json.decode Graph.decoder g.toJson.text.toList = .ok g
  | putAccumulators _ a => Json.decode Accumulators.decoder a.toJson.text.toList = .ok a
  | purge _ | reopen => True

/-- Transactions one after the other, with what each of them answers. -/
def run {σ : Type} (step : σ → Transaction → Option Bool × σ) (s : σ) :
    List Transaction → List (Option Bool) × σ
  | [] => ([], s)
  | t :: ts => ((step s t).1 :: (run step (step s t).2 ts).1, (run step (step s t).2 ts).2)

end Transaction

/-- **A transaction on a store**; a removal answers whether there was a record. -/
def Store.transact (s : Store) : Transaction → Option Bool × Store
  | .putJob r => (none, s.putJob r)
  | .putResources job rs => (none, s.putResources job rs)
  | .putGraph job g => (none, s.putGraph job g)
  | .putAccumulators job a => (none, s.putAccumulators job a)
  | .purge job => (some (s.purge job).1, (s.purge job).2)
  | .reopen => (none, s)

namespace Holdings

/-- Nothing. -/
def empty : Holdings := ⟨fun _ => none, fun _ _ => none, fun _ => none, fun _ => none⟩

/-- A map with another value under a name. -/
def assign {α : Type} (held : String → Option α) (name : String) (value : Option α) :
    String → Option α :=
  fun key => if name = key then value else held key

/-- The last of several resources under a name. -/
def last (rs : List Resource) (name : String) : Option Resource :=
  rs.reverse.find? fun r => r.name = name

lemma last_cons (r : Resource) (rest : List Resource) (name : String) :
    last (r :: rest) name = (last rest name).or (if r.name = name then some r else none) := by
  rw [last, last, List.reverse_cons, List.find?_append]
  by_cases called : r.name = name <;> simp [called]

/-- **A transaction on the maps**: what is put takes the place of what was there, and a removal
takes everything of the job and nothing else. -/
def transact (m : Holdings) : Transaction → Option Bool × Holdings
  | .putJob r => (none, { m with records := assign m.records r.name (some r) })
  | .putResources job rs =>
    (none, { m with resources := fun key name =>
      if job = key then (last rs name).or (m.resources key name) else m.resources key name })
  | .putGraph job g => (none, { m with graphs := assign m.graphs job (some g) })
  | .putAccumulators job a => (none, { m with accumulators := assign m.accumulators job (some a) })
  | .purge job =>
    (some (m.records job).isSome,
      { records := assign m.records job none
        resources := fun key name => if job = key then none else m.resources key name
        graphs := assign m.graphs job none
        accumulators := assign m.accumulators job none })
  | .reopen => (none, m)

end Holdings

/-! ## Rows of values -/

/-- **The rows of a table are those of the values in a map**, and each of them can be read. -/
structure Table.Keeps {α : Type} (rows : Table Row) (d : Json.Decoder α) (toJson : α → Json.Value)
    (held : String → Option α) : Prop where
  found : ∀ name, rows.find? name = (held name).map fun a => .of (toJson a)
  reads : ∀ name a, held name = some a → Row.decode d (.of (toJson a)) = .ok a

namespace Table.Keeps

variable {α : Type} {rows : Table Row} {d : Json.Decoder α} {toJson : α → Json.Value}
  {held : String → Option α}

lemma get (h : rows.Keeps d toJson held) (name : String) :
    Store.get rows d name = .ok (held name) := by
  rw [Store.get, h.found]
  cases there : held name with
  | none => rfl
  | some a => exact congrArg (Except.map some) (h.reads name a there)

lemma insert (h : rows.Keeps d toJson held) (name : String) {a : α}
    (read : Row.decode d (.of (toJson a)) = .ok a) :
    (rows.insert name (.of (toJson a))).Keeps d toJson (Holdings.assign held name (some a)) where
  found := by
    intro key
    rw [Table.find?_insert, Holdings.assign, h.found]
    split_ifs <;> rfl
  reads := by
    intro key b there
    unfold Holdings.assign at there
    split_ifs at there
    · exact Option.some.inj there ▸ read
    · exact h.reads key b there

lemma erase (h : rows.Keeps d toJson held) (name : String) :
    (rows.erase name).Keeps d toJson (Holdings.assign held name none) where
  found := by
    intro key
    rw [Table.find?_erase, Holdings.assign, h.found]
    by_cases here : name = key <;> simp [here, eq_comm]
  reads := by
    intro key b there
    unfold Holdings.assign at there
    split_ifs at there
    exact h.reads key b there

end Table.Keeps

/-! ## The resources of all jobs -/

/-- **The rows of the resources** stand under the keys of their jobs and names. -/
structure Table.KeepsResources (rows : Table Row) (held : String → String → Option Resource) :
    Prop where
  found : ∀ job name, ':' ∉ name.toList →
    rows.find? (resourceKey job name) = (held job name).map fun r => .of r.toJson
  named : ∀ job name r, held job name = some r → r.name = name ∧ ':' ∉ name.toList

namespace Table.KeepsResources

variable {rows : Table Row} {held : String → String → Option Resource}

/-- A key of one resource is no key of another, also if the names of the jobs have colons. -/
lemma resourceKey_eq_iff {job other name name' : String} (clear : ':' ∉ name.toList)
    (clear' : ':' ∉ name'.toList) :
    resourceKey job name = resourceKey other name' ↔ job = other ∧ name = name' := by
  constructor
  · intro same
    have owner := (resourceOwner_resourceKey job name).mpr clear
    rw [same, (resourceOwner_resourceKey other name').mpr clear'] at owner
    obtain rfl := Option.some.inj owner
    rw [← String.toList_inj, resourceKey_toList, resourceKey_toList] at same
    exact ⟨rfl, by simpa [String.toList_inj] using same⟩
  · rintro ⟨rfl, rfl⟩
    rfl

lemma get (h : rows.KeepsResources held) (job : String) {name : String}
    (clear : ':' ∉ name.toList) :
    Store.get rows Resource.decoder (resourceKey job name) = .ok (held job name) := by
  rw [Store.get, h.found job name clear]
  rcases held job name with _ | r
  · rfl
  · exact congrArg (Except.map some) (Row.decode_resource r)

/-- The resources of a job are listed in the order of their names. -/
lemma exists_lists (h : rows.KeepsResources held) (job : String) :
    ∃ l, (rows.filter (Store.isOwned job)).values.mapM (Row.decode Resource.decoder) = .ok l
      ∧ Lists Resource.name (held job) l := by
  refine Table.exists_lists (fun r : Resource => .of r.toJson) (resourceKey job) resourceKey_lt_iff ?_ ?_
  · exact fun name r there => ⟨(h.named job name r there).1, Row.decode_resource r⟩
  · intro key row
    rw [Table.find?_filter, Store.isOwned]
    constructor
    · intro there
      split_ifs at there with owned
      obtain ⟨name, clear, rfl⟩ := resourceOwner_eq_some_iff.mp (of_decide_eq_true owned)
      rw [h.found job name clear, Option.map_eq_some_iff] at there
      obtain ⟨r, there, rfl⟩ := there
      exact ⟨name, r, there, rfl, rfl⟩
    · rintro ⟨name, r, there, rfl, rfl⟩
      have clear := (h.named job name r there).2
      rw [if_pos (decide_eq_true ((resourceOwner_resourceKey job name).mpr clear)),
        h.found job name clear, there]
      rfl

lemma insert (h : rows.KeepsResources held) (job : String) {r : Resource}
    (clear : ':' ∉ r.name.toList) :
    (rows.insert (resourceKey job r.name) (.of r.toJson)).KeepsResources fun key name =>
      if job = key ∧ r.name = name then some r else held key name where
  found := by
    intro key name clear'
    rw [Table.find?_insert, h.found key name clear']
    simp only [resourceKey_eq_iff clear clear']
    split_ifs <;> rfl
  named := by
    intro key name r' there
    split_ifs at there with here
    · obtain rfl := Option.some.inj there
      exact ⟨here.2, here.2 ▸ clear⟩
    · exact h.named key name r' there

/-- Of several resources with one name the last counts. -/
lemma insertMany (h : rows.KeepsResources held) (job : String) {rs : List Resource}
    (clear : ∀ r ∈ rs, ':' ∉ r.name.toList) :
    (rows.insertMany (rs.map fun r => (resourceKey job r.name, .of r.toJson))).KeepsResources
      fun key name => if job = key then (Holdings.last rs name).or (held key name)
        else held key name := by
  induction rs generalizing rows held with
  | nil => simpa [Table.insertMany, Holdings.last] using h
  | cons r rest ih =>
      have first := h.insert job (clear r List.mem_cons_self)
      have others := ih first fun o member => clear o (List.mem_cons_of_mem r member)
      have same : (fun key name =>
            if job = key then (Holdings.last (r :: rest) name).or (held key name) else held key name)
          = fun key name => if job = key
            then (Holdings.last rest name).or
              (if job = key ∧ r.name = name then some r else held key name)
            else if job = key ∧ r.name = name then some r else held key name := by
        funext key name
        rw [Holdings.last_cons]
        by_cases own : job = key <;> by_cases called : r.name = name <;> simp [own, called]
      simp only [same, Table.insertMany, List.map_cons, List.foldl_cons] at others ⊢
      exact others

lemma purge (h : rows.KeepsResources held) (job : String) :
    (rows.filter fun key => !Store.isOwned job key).KeepsResources fun key name =>
      if job = key then none else held key name where
  found := by
    intro key name clear
    rw [Table.find?_filter, Store.isOwned, (resourceOwner_resourceKey key name).mpr clear,
      h.found key name clear]
    by_cases here : job = key <;> simp [here, eq_comm]
  named := by
    intro key name r there
    split_ifs at there
    exact h.named key name r there

end Table.KeepsResources

/-! ## What a store answers -/

namespace Store

variable {s : Store} {m : Holdings}

/-- **A store answers as the maps do.** -/
structure Shows (s : Store) (m : Holdings) : Prop where
  getJob : ∀ job, s.getJob job = .ok (m.records job)
  listJobs : ∃ l, s.listJobs = .ok l ∧ Lists Record.name m.records l
  getResource : ∀ job name, ':' ∉ name.toList → s.getResource job name = .ok (m.resources job name)
  listResources : ∀ job, ∃ l, s.listResources job = .ok l ∧ Lists Resource.name (m.resources job) l
  getGraph : ∀ job, s.getGraph job = .ok (m.graphs job)
  getAccumulators : ∀ job, s.getAccumulators job = .ok (m.accumulators job)

/-- **The rows of a store are those of the values** in the maps. -/
structure Represents (s : Store) (m : Holdings) : Prop where
  records : s.jobs.Keeps Record.decoder Record.toJson m.records
  named : ∀ job r, m.records job = some r → r.name = job
  resources : s.resources.KeepsResources m.resources
  graphs : s.graphs.Keeps Graph.decoder Graph.toJson m.graphs
  accumulators : s.accumulators.Keeps Accumulators.decoder Accumulators.toJson m.accumulators

namespace Represents

lemma empty : Represents .empty .empty where
  records := ⟨fun _ => rfl, by simp [Holdings.empty]⟩
  named := by simp [Holdings.empty]
  resources := ⟨fun _ _ _ => rfl, by simp [Holdings.empty]⟩
  graphs := ⟨fun _ => rfl, by simp [Holdings.empty]⟩
  accumulators := ⟨fun _ => rfl, by simp [Holdings.empty]⟩

lemma answers (h : s.Represents m) : s.Shows m where
  getJob := h.records.get
  listJobs := by
    refine Table.exists_lists (fun r : Record => .of r.toJson) id Iff.rfl ?_ ?_
    · exact fun job r there => ⟨h.named job r there, h.records.reads job r there⟩
    · intro key row
      rw [h.records.found, Option.map_eq_some_iff]
      constructor
      · rintro ⟨r, there, rfl⟩
        exact ⟨key, r, there, rfl, rfl⟩
      · rintro ⟨job, r, there, rfl, rfl⟩
        exact ⟨r, there, rfl⟩
  getResource := fun job name clear => h.resources.get job clear
  listResources := h.resources.exists_lists
  getGraph := h.graphs.get
  getAccumulators := h.accumulators.get

/-- **One transaction** is answered alike, and afterwards the rows are still those of the values. -/
lemma transact (h : s.Represents m) {t : Transaction} (keepable : t.Keepable) :
    (s.transact t).1 = (m.transact t).1 ∧ (s.transact t).2.Represents (m.transact t).2 := by
  cases t with
  | putJob r =>
      have read := Row.decode_record keepable
      refine ⟨rfl, { h with records := h.records.insert r.name read, named := ?_ }⟩
      intro job r' there
      simp only [Holdings.transact, Holdings.assign] at there
      split_ifs at there with here
      · exact Option.some.inj there ▸ here
      · exact h.named job r' there
  | putResources job rs => exact ⟨rfl, { h with resources := h.resources.insertMany job keepable }⟩
  | putGraph job g =>
      have read := Row.decode_eq_ok_iff.mpr keepable
      exact ⟨rfl, { h with graphs := h.graphs.insert job read }⟩
  | putAccumulators job a =>
      have read := Row.decode_eq_ok_iff.mpr keepable
      exact ⟨rfl, { h with accumulators := h.accumulators.insert job read }⟩
  | purge job =>
      refine ⟨?_, h.records.erase job, ?_, h.resources.purge job, h.graphs.erase job,
        h.accumulators.erase job⟩
      · simp [Store.transact, Holdings.transact, Store.purge, Table.contains, h.records.found]
      · intro key r there
        simp only [Holdings.transact, Holdings.assign] at there
        split_ifs at there
        exact h.named key r there
  | reopen => exact ⟨rfl, h⟩

/-- **Any transactions.** -/
lemma run (h : s.Represents m) {ts : List Transaction} (keepable : ∀ t ∈ ts, t.Keepable) :
    (Transaction.run Store.transact s ts).1 = (Transaction.run Holdings.transact m ts).1
      ∧ (Transaction.run Store.transact s ts).2.Represents
          (Transaction.run Holdings.transact m ts).2 := by
  induction ts generalizing s m with
  | nil => exact ⟨rfl, h⟩
  | cons t ts ih =>
      obtain ⟨answer, after⟩ := h.transact (keepable t List.mem_cons_self)
      obtain ⟨answers, final⟩ := ih after fun u member => keepable u (List.mem_cons_of_mem t member)
      exact ⟨congrArg₂ List.cons answer answers, final⟩

end Represents

end Store

/-- **After any transactions on an empty store** the store answers as the maps do that hold the
values themselves, and so does every removal on the way. -/
theorem Transaction.run_shows (ts : List Transaction) (keepable : ∀ t ∈ ts, t.Keepable) :
    (run Store.transact .empty ts).1 = (run Holdings.transact .empty ts).1
      ∧ (run Store.transact .empty ts).2.Shows (run Holdings.transact .empty ts).2 := by
  obtain ⟨answers, final⟩ := Store.Represents.empty.run keepable
  exact ⟨answers, final.answers⟩

namespace Transaction

/-- Three jobs, of which one has no name and one has a name that continues the name of another after
a colon; resources are deployed for these two, and then one of them is removed. -/
def prefixedJobs : List Transaction :=
  let r (job : String) : Record := .new job ⟨1, 1, .empty⟩ 0
  let x (name url : String) : Resource := ⟨name, .data, .remote url, ""⟩
  [.putJob (r "a:b"), .putJob (r "a"), .putJob (r ""),
    .putResources "a" [x "lib" "one", x "b" "two"],
    .putResources "a:b" [x "lib" "three", x "b" "four", x "lib" "five"],
    .putGraph "a" (.new .null), .putAccumulators "a:b" .empty, .purge "a", .reopen]

/-- Of these three jobs the removal of the shorter name leaves the other two as they were. -/
theorem prefixedJobs_shown :
    (∀ t ∈ prefixedJobs, t.Keepable)
      ∧ (run Store.transact .empty prefixedJobs).1
          = [none, none, none, none, none, none, none, some true, none]
      ∧ (run Store.transact .empty prefixedJobs).2.getJob "a" = .ok none
      ∧ (run Store.transact .empty prefixedJobs).2.getResource "a:b" "lib"
          = .ok (some ⟨"lib", .data, .remote "five", ""⟩)
      ∧ (run Store.transact .empty prefixedJobs).2.getAccumulators "a:b" = .ok (some .empty) := by
  have fits (job : String) : (Record.new job ⟨1, 1, .empty⟩ 0).Fits :=
    ⟨⟨by norm_num [Record.new], by norm_num [Record.new]⟩, by norm_num [Record.new],
      by norm_num [Record.new]⟩
  have graph : Keepable (.putGraph "a" (.new .null)) :=
    Row.decode_eq_ok_iff.mp ((Graph.decode_row_iff (g := .new .null) trivial).mpr ⟨by decide, trivial⟩)
  have counters : Keepable (.putAccumulators "a:b" .empty) := by
    refine Row.decode_eq_ok_iff.mp ?_
    rw [Accumulators.decode_row .empty]
    rfl
  have keepable : ∀ t ∈ prefixedJobs, t.Keepable := by
    intro t member
    simp only [prefixedJobs, List.mem_cons, List.not_mem_nil, or_false] at member
    rcases member with rfl | rfl | rfl | rfl | rfl | rfl | rfl | rfl | rfl
    · exact fits _
    · exact fits _
    · exact fits _
    · simp [Keepable]
    · simp [Keepable]
    · exact graph
    · exact counters
    · trivial
    · trivial
  obtain ⟨removals, final⟩ := run_shows prefixedJobs keepable
  have removed : (run Holdings.transact .empty prefixedJobs).1
      = [none, none, none, none, none, none, none, some true, none] := rfl
  have record : (run Holdings.transact .empty prefixedJobs).2.records "a" = none := rfl
  have resource : (run Holdings.transact .empty prefixedJobs).2.resources "a:b" "lib"
      = some ⟨"lib", .data, .remote "five", ""⟩ := rfl
  have snapshot : (run Holdings.transact .empty prefixedJobs).2.accumulators "a:b"
      = some .empty := rfl
  refine ⟨keepable, removals.trans removed, ?_, ?_, ?_⟩
  · rw [final.getJob, record]
  · rw [final.getResource _ _ (by decide), resource]
  · rw [final.getAccumulators, snapshot]

end Transaction

end ControlPlane
