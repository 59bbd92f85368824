import Mathlib
import ControlPlane.Proofs.Client.Desk
import ControlPlane.Proofs.Json.Sources
import ControlPlane.Proofs.Registry.Holdings

/-!
# Bundles and the rows that are made of them

A bundle only grows as long as nothing is cleared, and its resources stand under their own names, which are
proper.  A deployment makes a row of each of them.

* `Bundle.Proper`, `Bundle.Grows` — what additions keep, and what they do.
* `Bundle.Covers`, `Bundle.Matches` — every row of a job is that of a resource in the bundle, and the other
  way round.
* `Covers.putResources` — a deployment of a bundle that covers the rows makes them match.
* `Matches.listResources` — then the bundle is what is listed.
* `Covers.checkResources` — nothing in the bundle is in conflict with a row.
-/

namespace ControlPlane

/-! ## Names of resources -/

lemma Resource.colon_of_isName {name : String} (proper : Resource.isName name = true) :
    ':' ∉ name.toList := by
  intro member
  simp only [isName, Bool.and_eq_true, List.all_eq_true] at proper
  simpa using proper.2 ':' member

lemma Resource.clear_of_inline {name : String} {kind : ResourceKind} {bytes : List UInt8} {r : Resource}
    (built : Resource.inline name kind bytes = .ok r) : ':' ∉ r.name.toList := by
  unfold inline at built
  split_ifs at built with proper
  obtain rfl := Except.ok.inj built
  exact colon_of_isName proper

lemma Resource.clear_of_remote {name : String} {kind : ResourceKind} {url : String} {r : Resource}
    (built : Resource.remote name kind url = .ok r) : ':' ∉ r.name.toList := by
  unfold remote at built
  split_ifs at built with proper
  obtain rfl := Except.ok.inj built
  exact colon_of_isName proper

lemma Resource.clear_of_fromLocator {files : FileTree} {locator : String} {name : Option String}
    {kind : ResourceKind} {r : Resource} (built : Resource.fromLocator files locator name kind = .ok r) :
    ':' ∉ r.name.toList := by
  obtain ⟨found, -, built⟩ := Except.bind_eq_ok_iff.mp built
  cases found with
  | file path =>
      simp only at built
      split at built
      · exact clear_of_inline built
      · simp [throw, throwThe, MonadExceptOf.throw] at built
  | remote url => exact clear_of_remote built

/-- A map has one list. -/
lemma Lists.unique {α : Type} {name : α → String} {held : String → Option α} {l l' : List α}
    (h : Lists name held l) (h' : Lists name held l') : l = l' := by
  have ordered : ∀ {k : List α}, Lists name held k → k.Pairwise fun a b => name a < name b :=
    fun lists => lists.ordered.imp bytes_lt_iff.mp
  have nodup : ∀ {k : List α}, Lists name held k → k.Nodup := fun lists =>
    List.Pairwise.imp (fun {a b} less (same : a = b) => lt_irrefl (name b) (same ▸ less)) (ordered lists)
  have perm : l.Perm l' := (List.perm_ext_iff_of_nodup (nodup h) (nodup h')).mpr fun a =>
    (h.mem_iff a).trans (h'.mem_iff a).symm
  refine perm.eq_of_pairwise (fun a b _ _ first second => ?_) (ordered h) (ordered h')
  exact absurd second (lt_asymm first)

namespace Bundle

/-! ## Additions -/

/-- **Every resource stands under its own name**, and the name is clear of what separates keys. -/
def Proper (b : Bundle) : Prop :=
  ∀ name r, b.find? name = some r → r.name = name ∧ ':' ∉ name.toList

/-- **One bundle grows into another**: nothing is taken out of it or exchanged. -/
structure Grows (b b' : Bundle) : Prop where
  keeps : ∀ name r, b.find? name = some r → b'.find? name = some r
  proper : b.Proper → b'.Proper
  frozen : b'.frozen = b.frozen

lemma Grows.refl (b : Bundle) : b.Grows b := ⟨fun _ _ found => found, id, rfl⟩

lemma empty_proper : empty.Proper := by
  intro name r found
  simp [empty, find?] at found

variable {b b' : Bundle} {r : Resource}

/-- What is new among resources has a name that none of them has. -/
lemma isNew_eq_ok_true {resources : Table Resource} :
    isNew resources r = .ok true ↔ resources.find? r.name = none := by
  unfold isNew
  cases resources.find? r.name with
  | none => simp
  | some existing =>
      simp only
      split_ifs <;> simp

lemma grows_of_add {new : Bool} (clear : ':' ∉ r.name.toList) (added : b.add r = .ok (new, b')) :
    b.Grows b' := by
  unfold add at added
  split_ifs at added
  · simp [Except.bind_eq_ok_iff] at added
  obtain ⟨isNew, fresh, added⟩ := Except.bind_eq_ok_iff.mp added
  cases isNew with
  | false =>
      obtain ⟨-, rfl⟩ : false = new ∧ b = b' := by simpa [pure, Except.pure] using added
      exact .refl b
  | true =>
      obtain ⟨-, rfl⟩ : true = new ∧ { b with resources := b.resources.insert r.name r } = b' := by
        simpa [pure, Except.pure] using added
      have absent := isNew_eq_ok_true.mp fresh
      refine ⟨fun name s found => ?_, fun proper name s found => ?_, rfl⟩
      · have other : r.name ≠ name := by
          rintro rfl
          simp [find?, absent] at found
        simpa [find?, other] using found
      · simp only [find?, Table.find?_insert] at found
        split_ifs at found with here
        · obtain rfl := Option.some.inj found
          exact ⟨here, here ▸ clear⟩
        · exact proper name s found

/-- The new ones among some resources stand under their own names, which are not taken. -/
lemma freshAmong_spec {present fresh result : Table Resource} {rs : List Resource}
    (clear : ∀ r ∈ rs, ':' ∉ r.name.toList) (found : freshAmong present fresh rs = .ok result)
    (before : ∀ name r, fresh.find? name = some r →
      r.name = name ∧ ':' ∉ name.toList ∧ present.find? name = none) :
    ∀ name r, result.find? name = some r →
      r.name = name ∧ ':' ∉ name.toList ∧ present.find? name = none := by
  induction rs generalizing fresh with
  | nil =>
      obtain rfl := Except.ok.inj found
      exact before
  | cons r rest ih =>
      have clear_rest : ∀ s ∈ rest, ':' ∉ s.name.toList := fun s member =>
        clear s (List.mem_cons_of_mem r member)
      obtain ⟨beside, new, found⟩ := Except.bind_eq_ok_iff.mp found
      cases beside with
      | false => exact ih clear_rest found before
      | true =>
          obtain ⟨among, -, found⟩ := Except.bind_eq_ok_iff.mp found
          cases among with
          | false => exact ih clear_rest found before
          | true =>
              refine ih clear_rest found fun name s there => ?_
              rw [Table.find?_insert] at there
              split_ifs at there with here
              · obtain rfl := Option.some.inj there
                exact ⟨here, here ▸ clear r List.mem_cons_self, here ▸ isNew_eq_ok_true.mp new⟩
              · exact before name s there

lemma grows_of_addAll {rs : List Resource} {n : ℕ} (clear : ∀ r ∈ rs, ':' ∉ r.name.toList)
    (added : b.addAll rs = .ok (n, b')) : b.Grows b' := by
  unfold addAll at added
  split_ifs at added
  · simp [Except.bind_eq_ok_iff] at added
  obtain ⟨fresh, found, added⟩ := Except.bind_eq_ok_iff.mp added
  obtain ⟨-, rfl⟩ : fresh.size = n
      ∧ { b with resources := b.resources.insertMany fresh.entries } = b' := by
    simpa [pure, Except.pure] using added
  have spec := freshAmong_spec clear found (by simp)
  refine ⟨fun name r there => ?_, fun proper name r there => ?_, rfl⟩
  · have still : ((b.resources.insertMany fresh.entries).find? name).isSome = true :=
      (Table.isSome_insertMany ..).mpr (.inl (Option.isSome_of_eq_some there))
    obtain ⟨s, now⟩ := Option.isSome_iff_exists.mp still
    rcases Table.find?_of_insertMany now with before | new
    · exact (now.trans before.symm).trans there
    · have absent := (spec name s (Table.mem_entries_iff.mp new)).2.2
      simp [show b.resources.find? name = some r from there] at absent
  · rcases Table.find?_of_insertMany there with before | new
    · exact proper name r before
    · obtain ⟨own, clear, -⟩ := spec name r (Table.mem_entries_iff.mp new)
      exact ⟨own, clear⟩

/-- What has been located is at hand. -/
lemma located_eq_ok {α : Type} {x : Except ResourceError α} {a : α} :
    located x = .ok a ↔ x = .ok a := by
  cases x <;> simp [located, Except.mapError]

/-- The number of resources that are new when one is added. -/
lemma grows_of_map_add {n : ℕ} (clear : ':' ∉ r.name.toList)
    (added : (b.add r).map (fun p => (p.1.toNat, p.2)) = .ok (n, b')) : b.Grows b' := by
  rcases one : b.add r with e | ⟨new, grown⟩
  · simp [one, Except.map] at added
  · obtain ⟨-, rfl⟩ : new.toNat = n ∧ grown = b' := by simpa [one, Except.map] using added
    exact grows_of_add clear one

/-- **A bundle grows by what is added to it.** -/
theorem grows_of_addTo {a : Addition} {n : ℕ} (added : a.addTo b = .ok (n, b')) : b.Grows b' := by
  have isOpen : b.frozen = false := by
    cases frozen : b.frozen with
    | false => rfl
    | true => simp [a.addTo_frozen frozen] at added
  cases a with
  | code loader files identifiers =>
      simp only [Addition.addTo, addCode, isOpen, Bool.false_eq_true, if_false] at added
      obtain ⟨rs, loaded, added⟩ := Except.bind_eq_ok_iff.mp added
      refine grows_of_addAll (fun r member => ?_) added
      obtain ⟨identifier, -, built⟩ := List.exists_of_mem_mapM (located_eq_ok.mp loaded) member
      unfold loadCode at built
      split at built
      · exact Resource.clear_of_inline built
      · simp at built
  | codeBytes identifier bytes =>
      simp only [Addition.addTo, addCodeBytes, isOpen, Bool.false_eq_true, if_false] at added
      rcases built : located (Resource.inline identifier .code bytes) with e | r
      · simp [built, bind, Except.bind, Except.map] at added
      · rw [built] at added
        exact grows_of_map_add (Resource.clear_of_inline (located_eq_ok.mp built)) added
  | located files locator name kind =>
      simp only [Addition.addTo, addLocated, isOpen, Bool.false_eq_true, if_false] at added
      rcases built : Bundle.located (Resource.fromLocator files locator name kind) with e | r
      · simp [built, bind, Except.bind, Except.map] at added
      · rw [built] at added
        exact grows_of_map_add (Resource.clear_of_fromLocator (located_eq_ok.mp built)) added

/-! ## Rows -/

/-- **Every row of a resource of the job** is that of a resource in the bundle. -/
def Covers (b : Bundle) (job : String) (s : Store) : Prop :=
  ∀ name row, s.resources.find? (resourceKey job name) = some row →
    ∃ r, b.find? name = some r ∧ row = .of r.toJson

/-- **The rows of the job's resources** are those of the resources in the bundle. -/
def Matches (b : Bundle) (job : String) (s : Store) : Prop :=
  ∀ name, s.resources.find? (resourceKey job name) = (b.find? name).map fun r => .of r.toJson

section Rows

variable {job : String} {s t : Store}

lemma Matches.covers (h : b.Matches job s) : b.Covers job s := by
  intro name row found
  rw [h name] at found
  obtain ⟨r, there, same⟩ := Option.map_eq_some_iff.mp found
  exact ⟨r, there, same.symm⟩

lemma Covers.of_rows (h : b.Covers job s)
    (same : ∀ name, t.resources.find? (resourceKey job name) = s.resources.find? (resourceKey job name)) :
    b.Covers job t :=
  fun name row found => h name row ((same name).symm.trans found)

lemma Matches.of_rows (h : b.Matches job s)
    (same : ∀ name, t.resources.find? (resourceKey job name) = s.resources.find? (resourceKey job name)) :
    b.Matches job t :=
  fun name => (same name).trans (h name)

lemma Covers.grows (h : b.Covers job s) (grows : b.Grows b') : b'.Covers job s := by
  intro name row found
  obtain ⟨r, there, same⟩ := h name row found
  exact ⟨r, grows.keeps name r there, same⟩

lemma mem_toList_iff (proper : b.Proper) : r ∈ b.toList ↔ b.find? r.name = some r := by
  constructor
  · intro member
    obtain ⟨⟨name, _⟩, entry, rfl⟩ := List.mem_map.mp member
    have found := Table.mem_entries_iff.mp entry
    rw [(proper name _ found).1]
    exact found
  · intro found
    exact List.mem_map.mpr ⟨(r.name, r), Table.mem_entries_iff.mpr found, rfl⟩

/-- The resources of a bundle are in the order of their names. -/
lemma lists_toList (proper : b.Proper) : Lists Resource.name b.find? b.toList where
  ordered := by
    refine List.pairwise_map.mpr (b.resources.ordered.imp_of_mem fun {x y} first second less => ?_)
    rw [bytes_lt_iff, (proper _ _ (Table.mem_entries_iff.mp first)).1,
      (proper _ _ (Table.mem_entries_iff.mp second)).1]
    exact less
  mem_iff := fun _ => mem_toList_iff proper

/-- **A deployment of a bundle** that covers the rows of the job: afterwards the rows match. -/
theorem Covers.putResources (h : b.Covers job s) (proper : b.Proper) :
    b.Matches job (s.putResources job b.toList) := by
  intro name
  set pairs := b.toList.map fun r => (resourceKey job r.name, Row.of r.toJson)
  show (s.resources.insertMany pairs).find? (resourceKey job name) = _
  have made : ∀ row, (s.resources.insertMany pairs).find? (resourceKey job name) = some row →
      ∃ r, b.find? name = some r ∧ row = .of r.toJson := by
    intro row found
    rcases Table.find?_of_insertMany found with before | new
    · exact h name row before
    · obtain ⟨r, member, same⟩ := List.mem_map.mp new
      obtain ⟨key, rfl⟩ : resourceKey job r.name = resourceKey job name ∧ Row.of r.toJson = row := by
        simpa using same
      obtain rfl : r.name = name := by simpa [resourceKey] using key
      exact ⟨r, (mem_toList_iff proper).mp member, rfl⟩
  cases there : b.find? name with
  | none =>
      cases found : (s.resources.insertMany pairs).find? (resourceKey job name) with
      | none => rfl
      | some row =>
          obtain ⟨r, here, -⟩ := made row found
          simp [there] at here
  | some r =>
      obtain ⟨own, -⟩ := proper name r there
      have kept : ((s.resources.insertMany pairs).find? (resourceKey job name)).isSome = true := by
        refine (Table.isSome_insertMany ..).mpr (.inr ⟨(resourceKey job r.name, .of r.toJson), ?_, by rw [own]⟩)
        exact List.mem_map.mpr ⟨r, (mem_toList_iff proper).mpr (own ▸ there), rfl⟩
      obtain ⟨row, found⟩ := Option.isSome_iff_exists.mp kept
      obtain ⟨r', here, rfl⟩ := made row found
      obtain rfl := Option.some.inj (there.symm.trans here)
      exact found

/-- **What is listed** is what is in the bundle. -/
theorem Matches.listResources (h : b.Matches job s) (proper : b.Proper) :
    s.listResources job = .ok b.toList := by
  have rows : ∀ key row, (s.resources.filter (Store.isOwned job)).find? key = some row
      ↔ ∃ name r, b.find? name = some r ∧ key = resourceKey job name ∧ row = .of r.toJson := by
    intro key row
    rw [Table.find?_filter]
    constructor
    · intro there
      split_ifs at there with owned
      obtain ⟨name, rfl⟩ := resourceKey_of_isOwned owned
      obtain ⟨r, found, rfl⟩ := h.covers name row there
      exact ⟨name, r, found, rfl, rfl⟩
    · rintro ⟨name, r, found, rfl, rfl⟩
      have owned : Store.isOwned job (resourceKey job name) = true := by
        simpa [isOwned_resourceKey] using (proper name r found).2
      rw [if_pos owned, h name, found]
      rfl
  obtain ⟨listed, read, lists⟩ := Table.exists_lists (fun r : Resource => .of r.toJson)
    (resourceKey job) resourceKey_lt_iff
    (fun name r there => ⟨(proper name r there).1, Row.decode_resource r⟩) rows
  rw [Store.listResources, read, lists.unique (lists_toList proper)]

lemma Matches.getResource (h : b.Matches job s) (name : String) :
    s.getResource job name = .ok (b.find? name) := by
  rw [Store.getResource, Store.get, h name]
  cases b.find? name with
  | none => rfl
  | some r => exact congrArg (Except.map some) (Row.decode_resource r)

/-- **Resources of a bundle that covers the rows** meet no other resource there. -/
lemma Covers.checkResources {c : Cluster} (h : b.Covers job c.store) {rs : List Resource}
    (members : ∀ r ∈ rs, b.find? r.name = some r) :
    (Operation.plan c (Operation.checkResources job rs)).1 = .ok () := by
  induction rs with
  | nil => rfl
  | cons r rest ih =>
      have others := ih fun s member => members s (List.mem_cons_of_mem r member)
      rw [Operation.checkResources, Operation.plan_bind, Operation.plan_getResource]
      cases there : c.store.resources.find? (resourceKey job r.name) with
      | none =>
          simpa [Store.getResource, Store.get, there, Except.mapError] using others
      | some row =>
          obtain ⟨r', found, rfl⟩ := h r.name row there
          obtain rfl := Option.some.inj ((members r List.mem_cons_self).symm.trans found)
          simpa [Store.getResource, Store.get, there, Row.decode_resource, Except.map, Except.mapError,
            Resource.sameContent] using others

end Rows

end Bundle

end ControlPlane
