import Mathlib
import ControlPlane.Proofs.Client.Bundles
import ControlPlane.Proofs.Registry.Identity

/-!
# Calls on a bundle in its place

A call changes the bundle where it stands, and what it has changed stays so when it fails later on.  It finds
its bytes outside, with a loader of code units or in files, and each look may leave a mark there.  Still a call
that fails leaves the bundle as it was, a frozen bundle is refused before anything is looked at, and several
resources are added together as they are one after the other.

* `Bundle.Edit`, `Bundle.Operation` — calls in place, and the operations made of them.
* `Edit.run_addCode_unitsOf`, `Edit.run_addLocated_filesOf` — with a loader and the files of a tree, they are the
  functions on bundles.
* `Edit.run_addAll_each` — resources that are added together, and one after the other.
* `Operation.reached_whole` — the statement about all operations on a bundle that any operations have led to.
-/

namespace ControlPlane

namespace Bundle

/-! ## Calls -/

/-- **Something that yields bytes**, such as a loader of code units or the reading of files.  Each look may
leave a mark outside. -/
abbrev Source (σ ι : Type) := ι → σ → Except FileError (List UInt8) × σ

/-- **A call on a bundle in its place**, with what there is outside of it.  Neither is taken back when the
call fails. -/
abbrev Edit (σ : Type) := EStateM BundleError (Bundle × σ)

/-- The result of a call that changes nothing. -/
def kept {σ α : Type} (x : Except BundleError α) (p : Bundle × σ) :
    EStateM.Result BundleError (Bundle × σ) α :=
  match x with
  | .ok a => .ok a p
  | .error e => .error e p

/-- The result in place of a function that answers the bundle as it becomes. -/
def settled {σ α : Type} (x : Except BundleError (α × Bundle)) (p : Bundle × σ) :
    EStateM.Result BundleError (Bundle × σ) α :=
  match x with
  | .ok (a, b) => .ok a (b, p.2)
  | .error e => .error e p

namespace Edit

variable {σ ι α : Type}

/-- A look outside. -/
def look (source : Source σ ι) (i : ι) : Edit σ (Except FileError (List UInt8)) :=
  modifyGet fun p => ((source i p.2).1, (p.1, (source i p.2).2))

/-- What has been answered elsewhere. -/
def take : Except BundleError α → Edit σ α
  | .ok a => pure a
  | .error e => throw e

/-- Only an open bundle is changed. -/
def ensureOpen : Edit σ Unit := do
  if (← get).1.frozen then throw .frozen

/-- Whether a resource is new. -/
def check (r : Resource) : Edit σ Bool := do
  take (isNew (← get).1.resources r)

/-- Adds a resource. -/
def add (r : Resource) : Edit σ Bool := do
  ensureOpen
  if ← check r then
    modify fun p => ({ p.1 with resources := p.1.resources.insert r.name r }, p.2)
    return true
  return false

/-- Collects the new ones among resources beside the bundle. -/
def gather (fresh : Table Resource) : List Resource → Edit σ (Table Resource)
  | [] => return fresh
  | r :: rest => do
    if ← check r then
      if ← take (isNew fresh r) then gather (fresh.insert r.name r) rest else gather fresh rest
    else gather fresh rest

/-- Adds several resources together. -/
def addAll (rs : List Resource) : Edit σ ℕ := do
  ensureOpen
  let fresh ← gather .empty rs
  modify fun p => ({ p.1 with resources := p.1.resources.insertMany fresh.entries }, p.2)
  return fresh.size

/-- **Adds resources one after the other**, until one is refused; answers for each whether it was new. -/
def addEach (rs : List Resource) : Edit σ (List Bool) := rs.mapM add

/-- Loads a code unit. -/
def loadCode (load : Source σ String) (identifier : String) : Edit σ Resource := do
  match ← look load identifier with
  | .ok bytes => take (located (Resource.inline identifier .code bytes))
  | .error e => throw (.resource (.unreadable identifier e))

/-- Adds code units, all of which are loaded before. -/
def addCode (load : Source σ String) (identifiers : List String) : Edit σ ℕ := do
  ensureOpen
  let loaded ← identifiers.mapM (loadCode load)
  addAll loaded

/-- Adds a code unit whose bytes are at hand. -/
def addCodeBytes (identifier : String) (bytes : List UInt8) : Edit σ Bool := do
  ensureOpen
  add (← take (located (Resource.inline identifier .code bytes)))

/-- Finds the resource at a locator. -/
def locate (read : Source σ (List Char)) (locator : String) (name : Option String) (kind : ResourceKind) :
    Edit σ Resource := do
  let found ← take (located (Locator.parse locator))
  let name := name.getD (String.ofList found.fileName)
  match found with
  | .file path =>
    match ← look read path with
    | .ok bytes => take (located (Resource.inline name kind bytes))
    | .error e => throw (.resource (.unreadable (String.ofList path) e))
  | .remote url => take (located (Resource.remote name kind (String.ofList url)))

/-- Adds the resource at a locator. -/
def addLocated (read : Source σ (List Char)) (locator : String) (name : Option String)
    (kind : ResourceKind) : Edit σ Bool := do
  ensureOpen
  add (← locate read locator name kind)

/-! ## What calls come to -/

section Results

variable {p : Bundle × σ}

/-- After a call that has changed nothing. -/
lemma run_bind_of_kept {β : Type} {x : Edit σ α} {u : Except BundleError α} (k : α → Edit σ β) :
    x.run p = kept u p → (x >>= k).run p = match u with
      | .ok a => (k a).run p
      | .error e => .error e p := by
  intro same
  rw [EStateM.run_bind, same]
  cases u <;> rfl

lemma run_ensureOpen :
    (ensureOpen : Edit σ Unit).run p = kept (if p.1.frozen then .error .frozen else .ok ()) p := by
  by_cases frozen : p.1.frozen = true <;> simp [ensureOpen, frozen, kept]

lemma run_take (x : Except BundleError α) : (take x : Edit σ α).run p = kept x p := by
  cases x <;> rfl

lemma run_check (r : Resource) : (check r : Edit σ Bool).run p = kept (isNew p.1.resources r) p :=
  run_take _

/-- **A frozen bundle is refused** before anything else happens. -/
lemma run_frozen (frozen : p.1.frozen = true) (k : Unit → Edit σ α) :
    (ensureOpen >>= k).run p = .error .frozen p := by
  rw [run_bind_of_kept k run_ensureOpen, if_pos frozen]

lemma run_open (isOpen : p.1.frozen = false) (k : Unit → Edit σ α) :
    (ensureOpen >>= k).run p = (k ()).run p := by
  rw [run_bind_of_kept k run_ensureOpen, isOpen]
  rfl

/-- In place a resource is added as by the function. -/
lemma run_add (r : Resource) : (add r : Edit σ Bool).run p = settled (p.1.add r) p := by
  obtain ⟨⟨resources, frozen⟩, s⟩ := p
  unfold add Bundle.add
  cases frozen with
  | true => exact run_frozen rfl _
  | false =>
      rw [run_open rfl, run_bind_of_kept _ (run_check r)]
      rcases isNew resources r with e | new
      · rfl
      · cases new <;> rfl

lemma run_gather (fresh : Table Resource) (rs : List Resource) :
    (gather fresh rs : Edit σ (Table Resource)).run p = kept (freshAmong p.1.resources fresh rs) p := by
  induction rs generalizing fresh with
  | nil => rfl
  | cons r rest ih =>
      rw [gather, freshAmong, run_bind_of_kept _ (run_check r)]
      rcases isNew p.1.resources r with e | new
      · rfl
      · cases new with
        | false => exact ih fresh
        | true =>
            refine (run_bind_of_kept _ (run_take (isNew fresh r))).trans ?_
            rcases isNew fresh r with e | new
            · rfl
            · cases new
              · exact ih fresh
              · exact ih (fresh.insert r.name r)

/-- In place several resources are added as by the function. -/
lemma run_addAll (rs : List Resource) : (addAll rs : Edit σ ℕ).run p = settled (p.1.addAll rs) p := by
  obtain ⟨⟨resources, frozen⟩, s⟩ := p
  unfold addAll Bundle.addAll
  cases frozen with
  | true => exact run_frozen rfl _
  | false =>
      rw [run_open rfl, run_bind_of_kept _ (run_gather .empty rs)]
      rcases freshAmong resources .empty rs with e | fresh <;> rfl

/-! ## Together and one after the other -/

/-- What is new beside two tables, of which the second has no name of the first. -/
lemma isNew_union {present fresh : Table Resource}
    (apart : ∀ name, (fresh.find? name).isSome → present.find? name = none) (r : Resource) :
    isNew (present.insertMany fresh.entries) r
      = (isNew present r).bind fun new => if new then isNew fresh r else .ok false := by
  unfold isNew
  rw [Table.find?_insertMany_entries]
  rcases beside : fresh.find? r.name with _ | s
  · rcases present.find? r.name with _ | existing
    · rfl
    · by_cases same : existing.sameContent r = true <;> simp [same, Except.bind]
  · rw [apart r.name (by rw [beside]; rfl)]
    rfl

lemma insert_union (present fresh : Table Resource) (r : Resource) :
    (present.insertMany fresh.entries).insert r.name r
      = present.insertMany (fresh.insert r.name r).entries := by
  refine Table.ext_find? fun name => ?_
  rw [Table.find?_insert, Table.find?_insertMany_entries, Table.find?_insertMany_entries,
    Table.find?_insert]
  split_ifs <;> rfl

/-- What is new beside both tables is collected. -/
lemma freshAmong_cons (present fresh : Table Resource) (r : Resource) (rest : List Resource) :
    freshAmong present fresh (r :: rest)
      = ((isNew present r).bind fun new => if new then isNew fresh r else .ok false).bind fun new =>
        freshAmong present (if new then fresh.insert r.name r else fresh) rest := by
  rw [freshAmong]
  rcases isNew present r with e | new
  · rfl
  · cases new with
    | false => rfl
    | true =>
        rcases isNew fresh r with e | new
        · rfl
        · cases new <;> rfl

/-- One resource more that is added to an open bundle. -/
lemma run_addEach_cons (resources : Table Resource) (s : σ) (r : Resource) (rest : List Resource) :
    (addEach (r :: rest)).run (⟨resources, false⟩, s) = match isNew resources r with
      | .ok new => ((addEach rest).run
          (⟨if new then resources.insert r.name r else resources, false⟩, s)).map (new :: ·)
      | .error e => .error e (⟨resources, false⟩, s) := by
  rw [addEach, List.mapM_cons, EStateM.run_bind, run_add, Bundle.add]
  rcases isNew resources r with e | new
  · rfl
  · cases new <;> exact (EStateM.run_map ..)

/-- **The side table is the bundle as it would be**: what is collected of resources is what they add one
after the other. -/
lemma run_addEach_beside {present fresh : Table Resource} (s : σ)
    (apart : ∀ name, (fresh.find? name).isSome → present.find? name = none) (rs : List Resource) :
    match freshAmong present fresh rs with
    | .ok result => ∃ news : List Bool, news.count true + fresh.size = result.size
        ∧ (addEach rs).run (⟨present.insertMany fresh.entries, false⟩, s)
          = .ok news (⟨present.insertMany result.entries, false⟩, s)
    | .error e => ∃ q, (addEach rs).run (⟨present.insertMany fresh.entries, false⟩, s) = .error e q := by
  induction rs generalizing fresh with
  | nil => exact ⟨[], by simp, rfl⟩
  | cons r rest ih =>
      rw [freshAmong_cons, run_addEach_cons, ← isNew_union apart]
      rcases fate : isNew (present.insertMany fresh.entries) r with e | new
      · exact ⟨_, rfl⟩
      cases new with
      | false =>
          have later := ih apart
          simp only [Except.bind, Bool.false_eq_true, if_false]
          generalize freshAmong present fresh rest = collected at later ⊢
          rcases collected with e | result
          · obtain ⟨q, failed⟩ := later
            exact ⟨q, by rw [failed]; rfl⟩
          · obtain ⟨news, count, ended⟩ := later
            exact ⟨false :: news, by simpa using count, by rw [ended]; rfl⟩
      | true =>
          have absent := isNew_eq_ok_true.mp fate
          rw [Table.find?_insertMany_entries, Option.or_eq_none_iff] at absent
          have later := @ih (fresh.insert r.name r) fun name there => by
            rw [Table.find?_insert] at there
            split_ifs at there with here
            · exact here ▸ absent.2
            · exact apart name there
          simp only [Except.bind, if_true, insert_union]
          generalize freshAmong present (fresh.insert r.name r) rest = collected at later ⊢
          rcases collected with e | result
          · obtain ⟨q, failed⟩ := later
            exact ⟨q, by rw [failed]; rfl⟩
          · obtain ⟨news, count, ended⟩ := later
            rw [Table.size_insert absent.1] at count
            exact ⟨true :: news, by rw [List.count_cons_self]; omega, by rw [ended]; rfl⟩

/-- **Resources that are added together** to an open bundle are added as they are one after the other, or
none is, for the reason for which the first is refused. -/
theorem run_addAll_each {b : Bundle} (isOpen : b.frozen = false) (s : σ) (rs : List Resource) :
    (addAll rs).run (b, s) = match (addEach rs).run (b, s) with
      | .ok news q => .ok (news.count true) q
      | .error e _ => .error e (b, s) := by
  obtain ⟨resources, frozen⟩ := b
  obtain rfl : frozen = false := isOpen
  have each := @run_addEach_beside σ resources .empty s (by simp) rs
  rw [run_addAll, Bundle.addAll]
  generalize freshAmong resources .empty rs = collected at each ⊢
  rcases collected with e | result
  · obtain ⟨q, failed⟩ := each
    rw [show (addEach rs).run (⟨resources, false⟩, s) = _ from failed]
    rfl
  · obtain ⟨news, count, ended⟩ := each
    rw [show (addEach rs).run (⟨resources, false⟩, s) = _ from ended]
    exact congrArg (fun n => EStateM.Result.ok n _) count.symm

/-! ## Loaders and files -/

/-- The code units below the root directory of a loader. -/
def unitsOf (loader : CodeLoader) (files : FileTree) : Source σ String :=
  fun identifier s => (loader.load files identifier, s)

/-- The files of a tree. -/
def filesOf (files : FileTree) : Source σ (List Char) := fun path s => (files.read path, s)

lemma run_loadCode_unitsOf (loader : CodeLoader) (files : FileTree) (identifier : String) :
    (loadCode (unitsOf loader files) identifier : Edit σ Resource).run p
      = kept (located (Bundle.loadCode loader files identifier)) p := by
  have looked : (look (unitsOf loader files) identifier : Edit σ _).run p
      = kept (.ok (loader.load files identifier)) p := rfl
  unfold loadCode Bundle.loadCode
  rw [run_bind_of_kept _ looked]
  rcases loader.load files identifier with e | bytes
  · rfl
  · exact run_take _

lemma run_mapM_loadCode (loader : CodeLoader) (files : FileTree) (identifiers : List String) :
    (identifiers.mapM (loadCode (unitsOf loader files)) : Edit σ (List Resource)).run p
      = kept (located (identifiers.mapM (Bundle.loadCode loader files))) p := by
  induction identifiers with
  | nil => rfl
  | cons identifier rest ih =>
      rw [List.mapM_cons, List.mapM_cons, run_bind_of_kept _ (run_loadCode_unitsOf loader files identifier)]
      rcases Bundle.loadCode loader files identifier with e | r
      · rfl
      · refine (run_bind_of_kept _ ih).trans ?_
        rcases rest.mapM (Bundle.loadCode loader files) with e | rs <;> rfl

/-- **With the loader of a tree**, code units are added in place as by the function. -/
theorem run_addCode_unitsOf (loader : CodeLoader) (files : FileTree) (identifiers : List String) :
    (addCode (unitsOf loader files) identifiers : Edit σ ℕ).run p
      = settled (p.1.addCode loader files identifiers) p := by
  unfold addCode Bundle.addCode
  by_cases frozen : p.1.frozen = true
  · rw [run_frozen frozen, frozen]
    rfl
  · rw [Bool.not_eq_true] at frozen
    rw [run_open frozen, run_bind_of_kept _ (run_mapM_loadCode loader files identifiers), frozen]
    rcases located (identifiers.mapM (Bundle.loadCode loader files)) with e | rs
    · rfl
    · exact run_addAll rs

/-- In place a code unit whose bytes are at hand is added as by the function. -/
theorem run_addCodeBytes (identifier : String) (bytes : List UInt8) :
    (addCodeBytes identifier bytes : Edit σ Bool).run p
      = settled (p.1.addCodeBytes identifier bytes) p := by
  unfold addCodeBytes Bundle.addCodeBytes
  by_cases frozen : p.1.frozen = true
  · rw [run_frozen frozen, frozen]
    rfl
  · rw [Bool.not_eq_true] at frozen
    rw [run_open frozen, run_bind_of_kept _ (run_take _), frozen]
    rcases located (Resource.inline identifier .code bytes) with e | r
    · rfl
    · exact run_add r

lemma run_locate_filesOf (files : FileTree) (locator : String) (name : Option String) (kind : ResourceKind) :
    (locate (filesOf files) locator name kind : Edit σ Resource).run p
      = kept (located (Resource.fromLocator files locator name kind)) p := by
  unfold locate Resource.fromLocator
  rw [run_bind_of_kept _ (run_take _)]
  rcases Locator.parse locator with e | found
  · rfl
  cases found with
  | remote url => exact run_take _
  | file path =>
      have looked : (look (filesOf files) path : Edit σ _).run p = kept (.ok (files.read path)) p := rfl
      refine (run_bind_of_kept _ looked).trans ?_
      simp only [bind, Except.bind, located, Except.mapError]
      rcases files.read path with e | bytes
      · rfl
      · exact run_take _

/-- **With the files of a tree**, the resource at a locator is added in place as by the function. -/
theorem run_addLocated_filesOf (files : FileTree) (locator : String) (name : Option String)
    (kind : ResourceKind) :
    (addLocated (filesOf files) locator name kind : Edit σ Bool).run p
      = settled (p.1.addLocated files locator name kind) p := by
  unfold addLocated Bundle.addLocated
  by_cases frozen : p.1.frozen = true
  · rw [run_frozen frozen, frozen]
    rfl
  · rw [Bool.not_eq_true] at frozen
    rw [run_open frozen, run_bind_of_kept _ (run_locate_filesOf files locator name kind), frozen]
    rcases located (Resource.fromLocator files locator name kind) with e | r
    · rfl
    · exact run_add r

end Results

/-! ## What calls keep -/

/-- **A call that only looks**: the bundle stays, and what is found is as it should be. -/
def Finds (x : Edit σ α) (P : α → Prop) : Prop :=
  ∀ p, match x.run p with
    | .ok a q => q.1 = p.1 ∧ P a
    | .error _ q => q.1 = p.1

/-- **A call that is done or not**: a failure leaves the bundle as it was, and what holds of the bundle
before a success holds of it afterwards. -/
def Whole (I : Bundle → Prop) (x : Edit σ α) : Prop :=
  ∀ p, match x.run p with
    | .ok _ q => I p.1 → I q.1
    | .error _ q => q.1 = p.1

section Kept

variable {β : Type} {x : Edit σ α} {k : α → Edit σ β} {P : α → Prop} {Q : β → Prop} {I : Bundle → Prop}

lemma finds_pure {a : α} (fits : P a) : Finds (pure a : Edit σ α) P := fun _ => ⟨rfl, fits⟩

lemma finds_throw (e : BundleError) : Finds (throw e : Edit σ α) P := fun _ => rfl

lemma finds_take {u : Except BundleError α} (fits : ∀ a, u = .ok a → P a) :
    Finds (take u : Edit σ α) P := by
  cases u with
  | error e => exact finds_throw e
  | ok a => exact finds_pure (fits a rfl)

lemma finds_look (source : Source σ ι) (i : ι) : Finds (look source i) fun _ => True :=
  fun _ => ⟨rfl, trivial⟩

lemma finds_ensureOpen : Finds (ensureOpen : Edit σ Unit) fun _ => True := by
  intro p
  rw [run_ensureOpen]
  cases p.1.frozen
  · exact ⟨rfl, trivial⟩
  · rfl

lemma Finds.bind (first : Finds x P) (next : ∀ a, P a → Finds (k a) Q) : Finds (x >>= k) Q := by
  intro p
  have begins := first p
  rw [EStateM.run_bind]
  generalize x.run p = result at begins ⊢
  rcases result with ⟨a, q⟩ | ⟨e, q⟩
  · obtain ⟨same, fits⟩ := begins
    have ends := next a fits q
    simp only
    generalize (k a).run q = result at ends ⊢
    rcases result with ⟨b, o⟩ | ⟨e, o⟩
    · exact ⟨ends.1.trans same, ends.2⟩
    · exact ends.trans same
  · exact begins

lemma Finds.mapM {f : ι → Edit σ α} (each : ∀ i, Finds (f i) P) (items : List ι) :
    Finds (items.mapM f) fun found => ∀ a ∈ found, P a := by
  induction items with
  | nil => exact finds_pure (by simp)
  | cons i rest ih =>
      rw [List.mapM_cons]
      refine (each i).bind fun a fits => ih.bind fun found fit => finds_pure ?_
      exact List.forall_mem_cons.mpr ⟨fits, fit⟩

/-- **What only looks may come first.** -/
lemma Finds.whole (first : Finds x P) (next : ∀ a, P a → Whole I (k a)) : Whole I (x >>= k) := by
  intro p
  have begins := first p
  rw [EStateM.run_bind]
  generalize x.run p = result at begins ⊢
  rcases result with ⟨a, q⟩ | ⟨e, q⟩
  · obtain ⟨same, fits⟩ := begins
    have ends := next a fits q
    simp only
    generalize (k a).run q = result at ends ⊢
    rcases result with ⟨b, o⟩ | ⟨e, o⟩
    · exact fun holds => ends (same ▸ holds)
    · exact ends.trans same
  · exact begins

lemma Whole.map (whole : Whole I x) (f : α → β) : Whole I (f <$> x) := by
  intro p
  have done := whole p
  rw [EStateM.run_map]
  generalize x.run p = result at done ⊢
  rcases result with ⟨a, q⟩ | ⟨e, q⟩ <;> exact done

end Kept

end Edit

/-- **Every resource stands under its own name** and is as it should be. -/
def Holds (P : Resource → Prop) (b : Bundle) : Prop :=
  ∀ name r, b.find? name = some r → r.name = name ∧ P r

namespace Edit

section Additions

variable {σ : Type} {P : Resource → Prop}

lemma holds_insert {resources : Table Resource} {frozen : Bool} {r : Resource} (fits : P r)
    (holds : Holds P ⟨resources, frozen⟩) : Holds P ⟨resources.insert r.name r, frozen⟩ := by
  intro name s found
  simp only [Bundle.find?, Table.find?_insert] at found
  split_ifs at found with here
  · obtain rfl := Option.some.inj found
    exact ⟨here, fits⟩
  · exact holds name s found

lemma whole_add {r : Resource} (fits : P r) : Whole (Holds P) (add r : Edit σ Bool) := by
  rintro ⟨⟨resources, frozen⟩, s⟩
  rw [run_add, Bundle.add]
  cases frozen with
  | true => rfl
  | false =>
      rcases isNew resources r with e | new
      · rfl
      · cases new
        · exact id
        · exact holds_insert fits

lemma holds_of_addEach {rs : List Resource} (fit : ∀ r ∈ rs, P r) {resources : Table Resource} {s : σ}
    {news : List Bool} {q : Bundle × σ} (added : (addEach rs).run (⟨resources, false⟩, s) = .ok news q)
    (holds : Holds P ⟨resources, false⟩) : Holds P q.1 := by
  induction rs generalizing resources news with
  | nil =>
      cases added
      exact holds
  | cons r rest ih =>
      obtain ⟨fits, fit⟩ := List.forall_mem_cons.mp fit
      rw [run_addEach_cons] at added
      generalize isNew resources r = fate at added
      rcases fate with e | new
      · simp at added
      · obtain ⟨others, later, -⟩ := EStateM.Result.map_eq_ok.mp added
        refine ih fit later ?_
        cases new
        · exact holds
        · exact holds_insert fits holds

lemma whole_addAll {rs : List Resource} (fit : ∀ r ∈ rs, P r) :
    Whole (Holds P) (addAll rs : Edit σ ℕ) := by
  rintro ⟨⟨resources, frozen⟩, s⟩
  cases frozen with
  | true =>
      rw [addAll, run_frozen rfl]
  | false =>
      rw [run_addAll_each rfl]
      rcases added : (addEach rs).run (⟨resources, false⟩, s) with ⟨news, q⟩ | ⟨e, q⟩
      · exact holds_of_addEach fit added
      · rfl

lemma finds_loadCode (load : Source σ String) (identifier : String) :
    Finds (loadCode load identifier) Resource.Built := by
  refine (finds_look load identifier).bind fun answer _ => ?_
  cases answer with
  | error e => exact finds_throw _
  | ok bytes => exact finds_take fun r made => .inline (located_eq_ok.mp made)

lemma finds_locate (read : Source σ (List Char)) (locator : String) (name : Option String)
    (kind : ResourceKind) : Finds (locate read locator name kind) Resource.Built := by
  refine (finds_take fun found => located_eq_ok.mp).bind fun found parsed => ?_
  cases found with
  | remote url =>
      refine finds_take fun r made => ?_
      have there : Resource.fromLocator ⟨[], [], []⟩ locator name kind = .ok r := by
        rw [Resource.fromLocator, parsed]
        exact located_eq_ok.mp made
      exact .located there
  | file path =>
      refine (finds_look read path).bind fun answer _ => ?_
      cases answer with
      | error e => exact finds_throw _
      | ok bytes => exact finds_take fun r made => .inline (located_eq_ok.mp made)

end Additions

end Edit

/-! ## Operations -/

/-- **What may be asked of a bundle.**  Code units, archives and data at a locator differ in their kinds. -/
inductive Operation (σ : Type) where
  | add (r : Resource)
  | addAll (rs : List Resource)
  | addCode (load : Source σ String) (identifiers : List String)
  | addCodeBytes (identifier : String) (bytes : List UInt8)
  | addLocated (read : Source σ (List Char)) (locator : String) (name : Option String) (kind : ResourceKind)
  | freeze
  | thaw
  | clear

namespace Operation

variable {σ : Type}

/-- An operation in place; answers how many resources are new. -/
def perform : Operation σ → Edit σ ℕ
  | add r => Bool.toNat <$> Edit.add r
  | addAll rs => Edit.addAll rs
  | addCode load identifiers => Edit.addCode load identifiers
  | addCodeBytes identifier bytes => Bool.toNat <$> Edit.addCodeBytes identifier bytes
  | addLocated read locator name kind => Bool.toNat <$> Edit.addLocated read locator name kind
  | freeze => do
    modify fun p => (p.1.freeze, p.2)
    return 0
  | thaw => do
    modify fun p => (p.1.thaw, p.2)
    return 0
  | clear => do
    modify fun p => (p.1.clear, p.2)
    return 0

/-- Whether an operation is meant to add something. -/
def adds : Operation σ → Bool
  | add _ | addAll _ | addCode _ _ | addCodeBytes _ _ | addLocated _ _ _ _ => true
  | freeze | thaw | clear => false

/-- The resources that an operation has not built itself. -/
def handed : Operation σ → List Resource
  | add r => [r]
  | addAll rs => rs
  | addCode _ _ | addCodeBytes _ _ | addLocated _ _ _ _ | freeze | thaw | clear => []

/-- The bundle, and what is outside of it, after an operation that may have failed. -/
def after (p : Bundle × σ) (o : Operation σ) : Bundle × σ :=
  match o.perform.run p with
  | .ok _ q | .error _ q => q

/-- What operations lead to from an empty bundle. -/
def reached (past : List (Operation σ)) (outside : σ) : Bundle × σ :=
  past.foldl after (.empty, outside)

/-- **Every operation is done or not.** -/
lemma whole {P : Resource → Prop} (made : ∀ r : Resource, r.Built → P r) (o : Operation σ)
    (fit : ∀ r ∈ o.handed, P r) : Edit.Whole (Holds P) o.perform := by
  cases o with
  | add r => exact (Edit.whole_add (fit r List.mem_cons_self)).map _
  | addAll rs => exact Edit.whole_addAll fit
  | addCode load identifiers =>
      refine Edit.finds_ensureOpen.whole fun _ _ => ?_
      refine (Edit.Finds.mapM (Edit.finds_loadCode load) identifiers).whole fun rs built => ?_
      exact Edit.whole_addAll fun r member => made r (built r member)
  | addCodeBytes identifier bytes =>
      refine Edit.Whole.map (Edit.finds_ensureOpen.whole fun _ _ => ?_) _
      refine Edit.Finds.whole (P := Resource.Built) (Edit.finds_take fun r built => ?_) fun r built =>
        Edit.whole_add (made r built)
      exact .inline (located_eq_ok.mp built)
  | addLocated read locator name kind =>
      refine Edit.Whole.map (Edit.finds_ensureOpen.whole fun _ _ => ?_) _
      exact (Edit.finds_locate read locator name kind).whole fun r built => Edit.whole_add (made r built)
  | freeze | thaw => exact fun p holds => holds
  | clear => exact fun p _ name r found => by simp [Bundle.clear, Bundle.find?] at found

/-- What holds of all resources that are added holds of those in the bundle. -/
lemma holds_reached {P : Resource → Prop} (made : ∀ r : Resource, r.Built → P r)
    (past : List (Operation σ)) (fit : ∀ o ∈ past, ∀ r ∈ o.handed, P r) (outside : σ) :
    Holds P (reached past outside).1 := by
  have start : Holds P (Bundle.empty, outside).1 := fun name r found => by
    simp [Bundle.empty, Bundle.find?] at found
  unfold reached
  generalize (Bundle.empty, outside) = p at start ⊢
  induction past generalizing p with
  | nil => exact start
  | cons o rest ih =>
      obtain ⟨first, later⟩ := List.forall_mem_cons.mp fit
      refine ih later _ ?_
      have done := whole made o first p
      simp only [after]
      generalize o.perform.run p = result at done ⊢
      rcases result with ⟨n, q⟩ | ⟨e, q⟩
      · exact done start
      · exact done ▸ start

/-- A frozen bundle is refused by whatever adds to it, before anything is looked at. -/
lemma perform_frozen {p : Bundle × σ} (frozen : p.1.frozen = true) {o : Operation σ} (adds : o.adds = true) :
    o.perform.run p = .error .frozen p := by
  cases o with
  | add r => rw [perform, EStateM.run_map, Edit.add, Edit.run_frozen frozen]; rfl
  | addAll rs => rw [perform, Edit.addAll, Edit.run_frozen frozen]
  | addCode load identifiers => rw [perform, Edit.addCode, Edit.run_frozen frozen]
  | addCodeBytes identifier bytes =>
      rw [perform, EStateM.run_map, Edit.addCodeBytes, Edit.run_frozen frozen]; rfl
  | addLocated read locator name kind =>
      rw [perform, EStateM.run_map, Edit.addLocated, Edit.run_frozen frozen]; rfl
  | freeze | thaw | clear => simp [Operation.adds] at adds

/-- **Whatever operations have led to a bundle**, with any loaders and any files:

* every resource stands under its own name; and when those that were handed over had been built as well, every
  name is proper, and every digest is that of the content;
* an operation that fails leaves the bundle as it was;
* a frozen bundle is refused by all that adds to it, and nothing is looked at outside;
* several resources are added together to an open bundle as they are one after the other, with the number of
  those that were new; or none is, for the reason for which the first of them is refused. -/
theorem reached_whole (past : List (Operation σ)) (outside : σ) :
    (∀ name r, (reached past outside).1.find? name = some r → r.name = name)
    ∧ ((∀ o ∈ past, ∀ r ∈ o.handed, r.Built) →
        ∀ name r, (reached past outside).1.find? name = some r →
          name ≠ "" ∧ (∀ c ∈ name.toList, c ≠ '/' ∧ c ≠ '\\' ∧ c ≠ ':' ∧ isControl c = false)
          ∧ r.digest = Sha256.hexDigest r.payload.content)
    ∧ (∀ (o : Operation σ) (e : BundleError) (q : Bundle × σ),
        o.perform.run (reached past outside) = .error e q → q.1 = (reached past outside).1)
    ∧ ((reached past outside).1.frozen = true → ∀ o : Operation σ, o.adds = true →
        o.perform.run (reached past outside) = .error .frozen (reached past outside))
    ∧ ((reached past outside).1.frozen = false → ∀ rs : List Resource,
        (Edit.addAll rs).run (reached past outside)
          = match (rs.mapM Edit.add).run (reached past outside) with
            | .ok news q => .ok (news.count true) q
            | .error e _ => .error e (reached past outside)) := by
  refine ⟨fun name r found => ?_, fun built name r found => ?_, fun o e q failed => ?_,
    fun frozen o adds => perform_frozen frozen adds, fun isOpen rs => ?_⟩
  · exact (holds_reached (P := fun _ => True) (fun _ _ => trivial) past (by simp) outside name r found).1
  · obtain ⟨own, made⟩ := holds_reached (fun _ => id) past built outside name r found
    obtain ⟨proper, digest⟩ := made.sealed
    obtain ⟨filled, each⟩ := Resource.isName_iff.mp (own ▸ proper)
    exact ⟨filled, each, digest⟩
  · have done := whole (P := fun _ => True) (fun _ _ => trivial) o (by simp) (reached past outside)
    rwa [failed] at done
  · exact Edit.run_addAll_each isOpen _ rs

/-- A loader that counts how often it is asked. -/
def counting : Source ℕ String := fun _ asked => (.ok [], asked + 1)

/-- A bundle with one resource.  Of three more that are added together one is there already and one stands twice, and
so one is new; with a fourth, that takes the name of the first for another content, none is added.  Then the bundle is
frozen, and a loader is not asked any more. -/
theorem batches_before_freezing :
    let entry (name digest : String) : Resource := ⟨name, .data, .inline [], digest⟩
    let begun : List (Operation ℕ) := [.add (entry "x" "one")]
    let batch := [entry "x" "one", entry "y" "two", entry "y" "two"]
    let past : List (Operation ℕ) := [.addCodeBytes "lib" [0], .addCode counting ["tok"], .freeze]
    (Edit.addAll batch).run (reached begun 0) = .ok 1 (reached (begun ++ [.addAll batch]) 0)
      ∧ (reached (begun ++ [.addAll batch]) 0).1.toList = [entry "x" "one", entry "y" "two"]
      ∧ (Edit.addAll (batch ++ [entry "x" "three"])).run (reached begun 0)
        = .error (.resource (.conflict "x")) (reached begun 0)
      ∧ (reached past 0).1.frozen = true ∧ (reached past 0).2 = 1
      ∧ (Operation.addCode counting ["tok", "parse"]).perform.run (reached past 0)
        = .error .frozen (reached past 0) := by
  intro entry begun batch past
  obtain ⟨-, -, -, -, together⟩ := reached_whole begun 0
  have frozen : (reached past 0).1.frozen = true := by decide +kernel
  obtain ⟨-, -, -, refused, -⟩ := reached_whole past 0
  refine ⟨?_, by decide +kernel, ?_, frozen, by decide +kernel, refused frozen _ rfl⟩
  · rw [together rfl batch]
    cbv
  · rw [together rfl (batch ++ [entry "x" "three"])]
    cbv

end Operation

end Bundle

end ControlPlane
