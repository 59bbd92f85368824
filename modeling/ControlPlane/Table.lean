/-!
# Tables

A finite map from names to values.  The entries are kept in byte order of the names — the order of
`String` — with no name twice, and the type says so; hence two tables that answer every look-up
alike are equal (`Table.ext_find?`).

* `find?`, `insert`, `erase`, `filter` — the operations, each with its equation through `find?`.
* `ofList` — the table of a list of pairs, where the last pair of a name counts.
-/

namespace ControlPlane

/-- A finite map from names to values, in byte order of the names. -/
structure Table (α : Type u) where
  entries : List (String × α)
  ordered : entries.Pairwise fun a b => a.1 < b.1
  deriving DecidableEq

namespace Table

variable {α : Type u} {β : Type v}

/-! ## Order of names -/

/-- Two names that are neither equal nor in order are in order the other way round. -/
theorem lt_of_not_lt_of_ne {a b : String} (h : ¬a < b) (hne : a ≠ b) : b < a := by
  cases Decidable.em (b < a) with
  | inl hb => exact hb
  | inr hb => exact absurd (String.le_antisymm (String.not_lt.mp hb) (String.not_lt.mp h)) hne

theorem ne_of_lt {a b : String} (h : a < b) : a ≠ b := fun e =>
  String.lt_irrefl b (e ▸ h)

/-! ## Entries -/

/-- The value beside a name. -/
def lookup (name : String) : List (String × α) → Option α
  | [] => none
  | (key, value) :: rest => if key = name then some value else lookup name rest

/-- Entries with one more, in place of an entry of the same name. -/
def insertEntry (name : String) (value : α) : List (String × α) → List (String × α)
  | [] => [(name, value)]
  | (key, old) :: rest =>
    if name < key then (name, value) :: (key, old) :: rest
    else if name = key then (name, value) :: rest
    else (key, old) :: insertEntry name value rest

theorem mem_insertEntry {name : String} {value : α} {e : String × α} {entries : List (String × α)}
    (h : e ∈ insertEntry name value entries) : e.1 = name ∨ e ∈ entries := by
  induction entries with
  | nil => simp only [insertEntry, List.mem_singleton] at h; exact .inl (h ▸ rfl)
  | cons head rest ih =>
    obtain ⟨key, old⟩ := head
    simp only [insertEntry] at h
    split at h
    · rcases List.mem_cons.mp h with rfl | h
      · exact .inl rfl
      · exact .inr h
    · split at h
      · rcases List.mem_cons.mp h with rfl | h
        · exact .inl rfl
        · exact .inr (List.mem_cons_of_mem _ h)
      · rcases List.mem_cons.mp h with rfl | h
        · exact .inr List.mem_cons_self
        · exact (ih h).imp_right (List.mem_cons_of_mem _)

theorem ordered_insertEntry {name : String} {value : α} {entries : List (String × α)}
    (h : entries.Pairwise fun a b => a.1 < b.1) :
    (insertEntry name value entries).Pairwise fun a b => a.1 < b.1 := by
  induction entries with
  | nil => simp [insertEntry]
  | cons head rest ih =>
    obtain ⟨key, old⟩ := head
    have ⟨first, others⟩ := List.pairwise_cons.mp h
    simp only [insertEntry]
    split
    · next lt =>
      refine List.pairwise_cons.mpr ⟨fun e he => ?_, h⟩
      rcases List.mem_cons.mp he with rfl | he
      · exact lt
      · exact String.lt_trans lt (first e he)
    · next notLt =>
      split
      · next eq => subst eq; exact List.pairwise_cons.mpr ⟨first, others⟩
      · next ne =>
        refine List.pairwise_cons.mpr ⟨fun e he => ?_, ih others⟩
        rcases mem_insertEntry he with eq | he
        · exact eq ▸ lt_of_not_lt_of_ne notLt ne
        · exact first e he

/-! ## Operations -/

/-- The table without entries. -/
def empty : Table α := ⟨[], .nil⟩

instance : EmptyCollection (Table α) := ⟨empty⟩

instance : Inhabited (Table α) := ⟨empty⟩

instance [Repr α] : Repr (Table α) := ⟨fun t n => reprPrec t.entries n⟩

/-- The value under a name. -/
def find? (t : Table α) (name : String) : Option α := lookup name t.entries

/-- Whether there is a value under a name. -/
def contains (t : Table α) (name : String) : Bool := (t.find? name).isSome

/-- **Insertion**: the value under `name` becomes `value`. -/
def insert (t : Table α) (name : String) (value : α) : Table α :=
  ⟨insertEntry name value t.entries, ordered_insertEntry t.ordered⟩

/-- The entries whose names satisfy `keep`. -/
def filter (t : Table α) (keep : String → Bool) : Table α :=
  ⟨t.entries.filter fun e => keep e.1, t.ordered.sublist List.filter_sublist⟩

/-- **Erasure**: no value is left under `name`. -/
def erase (t : Table α) (name : String) : Table α := t.filter (· != name)

/-- The names, in order. -/
def names (t : Table α) : List String := t.entries.map (·.1)

/-- The values, in the order of their names. -/
def values (t : Table α) : List α := t.entries.map (·.2)

/-- The number of entries. -/
def size (t : Table α) : Nat := t.entries.length

/-- The table with every value replaced. -/
def map (f : α → β) (t : Table α) : Table β :=
  ⟨t.entries.map fun e => (e.1, f e.2), List.pairwise_map.mpr t.ordered⟩

/-- A table with the pairs of a list inserted one after the other. -/
def insertMany (t : Table α) (pairs : List (String × α)) : Table α :=
  pairs.foldl (fun t p => t.insert p.1 p.2) t

/-- The table of a list of pairs; the last pair of a name counts. -/
def ofList (pairs : List (String × α)) : Table α := empty.insertMany pairs

/-! ## Look-up after an operation -/

theorem lookup_insertEntry (name key : String) (value : α) (entries : List (String × α)) :
    lookup key (insertEntry name value entries)
      = if name = key then some value else lookup key entries := by
  induction entries with
  | nil => simp [insertEntry, lookup]
  | cons head rest ih =>
    obtain ⟨k, old⟩ := head
    simp only [insertEntry]
    split
    · simp [lookup]
    · split
      · next eq => subst eq; by_cases h : name = key <;> simp [lookup, h]
      · next ne =>
        simp only [lookup, ih]
        by_cases h : k = key
        · subst h; simp [ne]
        · simp [h]

@[simp] theorem find?_empty (name : String) : (empty : Table α).find? name = none := rfl

@[simp] theorem find?_insert (t : Table α) (name key : String) (value : α) :
    (t.insert name value).find? key = if name = key then some value else t.find? key :=
  lookup_insertEntry name key value t.entries

theorem lookup_filter (keep : String → Bool) (key : String) (entries : List (String × α)) :
    lookup key (entries.filter fun e => keep e.1)
      = if keep key then lookup key entries else none := by
  induction entries with
  | nil => simp [lookup]
  | cons head rest ih =>
    obtain ⟨k, old⟩ := head
    by_cases h : keep k <;> by_cases e : k = key <;> simp_all [lookup, List.filter]

@[simp] theorem find?_filter (t : Table α) (keep : String → Bool) (key : String) :
    (t.filter keep).find? key = if keep key then t.find? key else none :=
  lookup_filter keep key t.entries

@[simp] theorem find?_erase (t : Table α) (name key : String) :
    (t.erase name).find? key = if key = name then none else t.find? key := by
  by_cases h : key = name <;> simp [erase, h]

theorem lookup_map (f : α → β) (key : String) (entries : List (String × α)) :
    lookup key (entries.map fun e => (e.1, f e.2)) = (lookup key entries).map f := by
  induction entries with
  | nil => rfl
  | cons head rest ih =>
    obtain ⟨k, old⟩ := head
    by_cases e : k = key <;> simp [lookup, e, ih]

@[simp] theorem find?_map (f : α → β) (t : Table α) (key : String) :
    (t.map f).find? key = (t.find? key).map f :=
  lookup_map f key t.entries

/-! ## Equality of tables -/

theorem lookup_eq_none_of_lt {name : String} {entries : List (String × α)}
    (h : ∀ e ∈ entries, name < e.1) : lookup name entries = none := by
  induction entries with
  | nil => rfl
  | cons head rest ih =>
    obtain ⟨k, old⟩ := head
    have lt : name < k := h (k, old) List.mem_cons_self
    have ne : k ≠ name := fun e => ne_of_lt lt e.symm
    simp [lookup, ne, ih fun e he => h e (List.mem_cons_of_mem _ he)]

theorem entries_ext {xs ys : List (String × α)}
    (hx : xs.Pairwise fun a b => a.1 < b.1) (hy : ys.Pairwise fun a b => a.1 < b.1)
    (h : ∀ name, lookup name xs = lookup name ys) : xs = ys := by
  induction xs generalizing ys with
  | nil =>
    cases ys with
    | nil => rfl
    | cons y ys => have := h y.1; simp [lookup] at this
  | cons x xs ih =>
    cases ys with
    | nil => have := h x.1; simp [lookup] at this
    | cons y ys =>
      have ⟨firstX, restX⟩ := List.pairwise_cons.mp hx
      have ⟨firstY, restY⟩ := List.pairwise_cons.mp hy
      have key : x.1 = y.1 := by
        cases Decidable.em (x.1 = y.1) with
        | inl e => exact e
        | inr ne =>
          exfalso
          cases Decidable.em (x.1 < y.1) with
          | inl lt =>
            have hn : lookup x.1 ys = none :=
              lookup_eq_none_of_lt fun e he => String.lt_trans lt (firstY e he)
            have := h x.1
            simp [lookup, Ne.symm ne, hn] at this
          | inr notLt =>
            have lt := lt_of_not_lt_of_ne notLt ne
            have hn : lookup y.1 xs = none :=
              lookup_eq_none_of_lt fun e he => String.lt_trans lt (firstX e he)
            have := h y.1
            simp [lookup, ne, hn] at this
      have value : x.2 = y.2 := by
        have := h x.1
        simpa [lookup, key] using this
      have tails : xs = ys := by
        refine ih restX restY fun name => ?_
        have hname := h name
        cases Decidable.em (x.1 = name) with
        | inl e =>
          subst e
          have missing : lookup x.1 ys = none :=
            lookup_eq_none_of_lt fun e he => key ▸ firstY e he
          rw [lookup_eq_none_of_lt firstX, missing]
        | inr ne => simpa [lookup, ne, key ▸ ne] using hname
      rw [tails, show x = y from Prod.ext key value]

/-- **Extensionality**: tables that answer every look-up alike are equal. -/
theorem ext_find? {t u : Table α} (h : ∀ name, t.find? name = u.find? name) : t = u := by
  obtain ⟨xs, hx⟩ := t
  obtain ⟨ys, hy⟩ := u
  have := entries_ext hx hy h
  subst this
  rfl

end Table

end ControlPlane
