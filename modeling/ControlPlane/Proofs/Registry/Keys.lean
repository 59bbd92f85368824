import Mathlib
import ControlPlane.Job.Name
import ControlPlane.Registry.Store

/-!
# Which rows belong to a job

A resource is found again under a key that is made of two names, and its owner is read off the key
by splitting it at the last colon.  Making and splitting a key agree as long as the name of the
resource has no colon, and not otherwise.

* `splitLast_eq_some_iff` — what splitting at the last separator means.
* `resourceOwner_resourceKey`, `resourceKey_of_isOwned` — the owner of a key, and the keys of an owner.
* `resourceKey_inj` — keys of jobs without colons do not clash.
* `Store.SameRows` — two stores with the same rows for a job, whatever else they hold.  They answer
  alike about the job, and they still do after the same transaction on both.
-/

namespace ControlPlane

/-! ## Splitting -/

section Split

variable {α : Type} {p : α → Bool} {s : List α}

lemma drop_length_takeWhile : s.drop (s.takeWhile p).length = s.dropWhile p := by
  have split := List.takeWhile_append_dropWhile (p := p) (l := s)
  have parts := congrArg (List.drop (s.takeWhile p).length) split
  rw [List.drop_left] at parts
  exact parts.symm

/-- The first element that fails a test, with what is before and after it. -/
lemma dropWhile_eq_cons_iff (before after : List α) (a : α) :
    s.takeWhile p = before ∧ s.dropWhile p = a :: after
      ↔ s = before ++ a :: after ∧ (∀ b ∈ before, p b = true) ∧ p a = false := by
  constructor
  · rintro ⟨rfl, rest⟩
    refine ⟨?_, fun b member => List.mem_takeWhile_imp member, ?_⟩
    · rw [← rest, List.takeWhile_append_dropWhile]
    · have := List.head?_dropWhile_not p s
      simpa [rest] using this
  · rintro ⟨rfl, passed, failed⟩
    constructor
    · simp [List.takeWhile_append_of_pos passed, failed]
    · simp [List.dropWhile_append_of_pos passed, failed]

end Split

/-- **The last separator** is the one after which there is no other. -/
lemma splitLast_eq_some_iff {sep : Char} {s before after : List Char} :
    splitLast sep s = some (before, after) ↔ s = before ++ sep :: after ∧ sep ∉ after := by
  have shape : s = before ++ sep :: after ↔ s.reverse = after.reverse ++ sep :: before.reverse := by
    rw [← List.reverse_inj]
    simp
  have clear : sep ∉ after ↔ ∀ c ∈ after.reverse, decide (c ≠ sep) = true := by
    simp only [List.mem_reverse, decide_eq_true_eq]
    exact ⟨fun none c member eq => none (eq ▸ member), fun all member => all sep member rfl⟩
  have found := dropWhile_eq_cons_iff (p := fun c => decide (c ≠ sep)) (s := s.reverse)
    after.reverse before.reverse sep
  rw [shape, clear]
  rw [and_iff_left (show decide (sep ≠ sep) = false by simp)] at found
  rw [← found, splitLast, drop_length_takeWhile]
  cases tail : s.reverse.dropWhile fun c => decide (c ≠ sep) with
  | nil => simp
  | cons c front =>
      have first := List.head?_dropWhile_not (fun c => decide (c ≠ sep)) s.reverse
      rw [tail] at first
      obtain rfl : c = sep := by simpa using first
      simp only [Option.some.injEq, Prod.mk.injEq, List.cons.injEq, true_and]
      rw [List.reverse_eq_iff, List.reverse_eq_iff, and_comm]

/-! ## Keys and owners -/

lemma resourceKey_toList (job name : String) :
    (resourceKey job name).toList = job.toList ++ ':' :: name.toList := by
  simp [resourceKey]

lemma resourceOwner_eq_some_iff {key job : String} :
    resourceOwner key = some job ↔ ∃ name, ':' ∉ name.toList ∧ key = resourceKey job name := by
  unfold resourceOwner
  constructor
  · intro h
    obtain ⟨⟨before, after⟩, split, rfl⟩ := Option.map_eq_some_iff.mp h
    obtain ⟨text, clear⟩ := splitLast_eq_some_iff.mp split
    refine ⟨String.ofList after, by simpa using clear, ?_⟩
    rw [← String.toList_inj, resourceKey_toList, text]
    simp
  · rintro ⟨name, clear, rfl⟩
    rw [resourceKey_toList, splitLast_eq_some_iff.mpr ⟨rfl, clear⟩]
    simp

/-- **The owner of a key** is the job it was made for exactly when the name of the resource has no
colon. -/
lemma resourceOwner_resourceKey (job name : String) :
    resourceOwner (resourceKey job name) = some job ↔ ':' ∉ name.toList := by
  rw [resourceOwner_eq_some_iff]
  constructor
  · rintro ⟨other, clear, same⟩
    rw [← String.toList_inj, resourceKey_toList, resourceKey_toList] at same
    obtain rfl : name = other := by simpa [String.toList_inj] using same
    exact clear
  · exact fun clear => ⟨name, clear, rfl⟩

lemma isOwned_resourceKey (job name : String) :
    Store.isOwned job (resourceKey job name) = decide (':' ∉ name.toList) := by
  simp [Store.isOwned, resourceOwner_resourceKey]

lemma resourceKey_of_isOwned {job key : String} (h : Store.isOwned job key = true) :
    ∃ name, key = resourceKey job name := by
  obtain ⟨name, -, same⟩ := resourceOwner_eq_some_iff.mp (of_decide_eq_true h)
  exact ⟨name, same⟩

/-- Job names have no colons. -/
lemma Job.colon_not_mem {job : String} (h : Job.isName job = true) : ':' ∉ job.toList := by
  intro member
  simp only [Job.isName, Bool.and_eq_true, List.all_eq_true] at h
  exact absurd (h.2 ':' member) (by decide)

/-- What stands before the first colon. -/
lemma takeWhile_of_colon_not_mem {s : List Char} (clear : ':' ∉ s) (rest : List Char) :
    (s ++ ':' :: rest).takeWhile (fun c => decide (c ≠ ':')) = s := by
  refine ((dropWhile_eq_cons_iff _ _ _).mpr ⟨rfl, fun c member => ?_, by decide⟩).1
  exact decide_eq_true fun eq => clear (eq ▸ member)

/-- **Keys of different jobs** never clash, whatever the resources are called. -/
lemma resourceKey_inj {job other name name' : String} (valid : Job.isName job = true)
    (valid' : Job.isName other = true) (h : resourceKey job name = resourceKey other name') :
    job = other ∧ name = name' := by
  rw [← String.toList_inj, resourceKey_toList, resourceKey_toList] at h
  have first := congrArg (List.takeWhile fun c => decide (c ≠ ':')) h
  rw [takeWhile_of_colon_not_mem (Job.colon_not_mem valid),
    takeWhile_of_colon_not_mem (Job.colon_not_mem valid')] at first
  obtain rfl := String.toList_inj.mp first
  exact ⟨rfl, by simpa [String.toList_inj] using h⟩

/-! ## The rows of one job -/

/-- The same insertions make no difference to tables that agree on a name. -/
lemma Table.find?_insertMany_congr {α : Type} {t u : Table α} {name : String}
    (pairs : List (String × α)) (h : u.find? name = t.find? name) :
    (u.insertMany pairs).find? name = (t.insertMany pairs).find? name := by
  unfold insertMany
  induction pairs generalizing t u with
  | nil => exact h
  | cons p rest ih =>
      refine ih ?_
      rw [find?_insert, find?_insert, h]

/-- A name has a value after insertions if it had one before or if one was inserted. -/
lemma Table.isSome_insertMany {α : Type} (t : Table α) (pairs : List (String × α)) (name : String) :
    ((t.insertMany pairs).find? name).isSome = true
      ↔ (t.find? name).isSome = true ∨ ∃ p ∈ pairs, p.1 = name := by
  unfold insertMany
  induction pairs generalizing t with
  | nil => simp
  | cons p rest ih =>
      rw [List.foldl_cons, ih, find?_insert]
      by_cases here : p.1 = name <;> simp [here]

namespace Store

/-- **Two stores with the same rows for a job**: a record, a graph, counters, and a resource for
each name. -/
structure SameRows (job : String) (s t : Store) : Prop where
  record : t.jobs.find? job = s.jobs.find? job
  graph : t.graphs.find? job = s.graphs.find? job
  accumulators : t.accumulators.find? job = s.accumulators.find? job
  resource : ∀ name,
    t.resources.find? (resourceKey job name) = s.resources.find? (resourceKey job name)

namespace SameRows

variable {s t u : Store} {job : String}

lemma refl (job : String) (s : Store) : SameRows job s s := ⟨rfl, rfl, rfl, fun _ => rfl⟩

lemma symm (h : SameRows job s t) : SameRows job t s where
  record := h.record.symm
  graph := h.graph.symm
  accumulators := h.accumulators.symm
  resource := fun name => (h.resource name).symm

lemma trans (first : SameRows job s t) (second : SameRows job t u) : SameRows job s u where
  record := second.record.trans first.record
  graph := second.graph.trans first.graph
  accumulators := second.accumulators.trans first.accumulators
  resource := fun name => (second.resource name).trans (first.resource name)

/-! ### The same answers -/

lemma getJob (h : SameRows job s t) : t.getJob job = s.getJob job := by
  unfold Store.getJob get
  rw [h.record]

lemma getGraph (h : SameRows job s t) : t.getGraph job = s.getGraph job := by
  unfold Store.getGraph get
  rw [h.graph]

lemma getAccumulators (h : SameRows job s t) : t.getAccumulators job = s.getAccumulators job := by
  unfold Store.getAccumulators get
  rw [h.accumulators]

lemma getResource (h : SameRows job s t) (name : String) :
    t.getResource job name = s.getResource job name := by
  unfold Store.getResource get
  rw [h.resource]

/-- The rows that a job owns are among those of its resources. -/
lemma listResources (h : SameRows job s t) : t.listResources job = s.listResources job := by
  have owned : t.resources.filter (isOwned job) = s.resources.filter (isOwned job) := by
    refine Table.ext_find? fun key => ?_
    rw [Table.find?_filter, Table.find?_filter]
    split_ifs with own
    · obtain ⟨name, rfl⟩ := resourceKey_of_isOwned own
      exact h.resource name
    · rfl
  unfold Store.listResources
  rw [owned]

/-! ### The same transactions -/

lemma putJob (h : SameRows job s t) (r : Record) : SameRows job (s.putJob r) (t.putJob r) where
  record := by simp [Store.putJob, h.record]
  graph := h.graph
  accumulators := h.accumulators
  resource := h.resource

lemma putGraph (h : SameRows job s t) (key : String) (g : Graph) :
    SameRows job (s.putGraph key g) (t.putGraph key g) where
  record := h.record
  graph := by simp [Store.putGraph, h.graph]
  accumulators := h.accumulators
  resource := h.resource

lemma putAccumulators (h : SameRows job s t) (key : String) (a : Accumulators) :
    SameRows job (s.putAccumulators key a) (t.putAccumulators key a) where
  record := h.record
  graph := h.graph
  accumulators := by simp [Store.putAccumulators, h.accumulators]
  resource := h.resource

lemma putResources (h : SameRows job s t) (key : String) (rs : List Resource) :
    SameRows job (s.putResources key rs) (t.putResources key rs) where
  record := h.record
  graph := h.graph
  accumulators := h.accumulators
  resource := fun name => Table.find?_insertMany_congr _ (h.resource name)

lemma purge (h : SameRows job s t) (key : String) :
    SameRows job (s.purge key).2 (t.purge key).2 where
  record := by simp [Store.purge, h.record]
  graph := by simp [Store.purge, h.graph]
  accumulators := by simp [Store.purge, h.accumulators]
  resource := fun name => by simp [Store.purge, h.resource name]

end SameRows

/-! ### What a removal leaves -/

/-- **Of the resources of a job**, its removal leaves those with a colon in their names. -/
lemma purge_resource (s : Store) (job name : String) :
    (s.purge job).2.resources.find? (resourceKey job name)
      = if ':' ∈ name.toList then s.resources.find? (resourceKey job name) else none := by
  simp [purge, isOwned_resourceKey]

end Store

end ControlPlane
