import Mathlib
import ControlPlane.Proofs.Cluster.Crash
import ControlPlane.Proofs.Registry.Holdings
import ControlPlane.Proofs.Registry.Identity

/-!
# Deployments of several resources

A deployment compares each of its resources with what is stored under its name, and then stores all of them, so
that of several with one name the last one counts.  They are not compared with each other.  A deployment whose
resources agree is what they are one after the other; a deployment whose resources do not is accepted as
well, and then some of them are not there, and it cannot be repeated.

* `Store.held`, `Store.clashes` — the resource under a name, and a resource that is not the one there.
* `Resource.Agree` — resources of one name have one content.
* `Cluster.Admits`, `Admits.run_deploy` — what a deployment comes to.
* `Operation.deployEach`, `Admits.deployEach_agree` — deployments one after the other.
* `World.batch_deployed` — the statement about runs; `World.twins_deployed` — two resources of one name.
-/

namespace ControlPlane

/-! ## Resources under a name -/

namespace Holdings

lemma last_eq_some {rs : List Resource} {name : String} {x : Resource} (found : last rs name = some x) :
    x ∈ rs ∧ x.name = name :=
  ⟨List.mem_reverse.mp (List.mem_of_find?_eq_some found), by simpa using List.find?_some found⟩

lemma exists_last {rs : List Resource} {x : Resource} (member : x ∈ rs) : ∃ y, last rs x.name = some y := by
  refine Option.isSome_iff_exists.mp (List.find?_isSome.mpr ⟨x, List.mem_reverse.mpr member, ?_⟩)
  simp

end Holdings

namespace Store

variable {s : Store} {job : String}

/-- **The resource under a name** of a job, if there is one that can be read. -/
def held (s : Store) (job name : String) : Option Resource :=
  match s.getResource job name with
  | .ok found => found
  | .error _ => none

/-- **A resource is not the one** that is stored under its name. -/
def clashes (s : Store) (job : String) (x : Resource) : Bool :=
  match s.held job x.name with
  | some old => !old.sameContent x
  | none => false

/-- What stands in a labelled store can be read. -/
lemma Labelled.getResource_eq (h : s.Labelled) (job name : String) :
    s.getResource job name = .ok (s.held job name) := by
  have read : ∃ found, s.getResource job name = .ok found := by
    unfold getResource get
    cases there : s.resources.find? (resourceKey job name) with
    | none => exact ⟨none, rfl⟩
    | some row =>
        obtain ⟨-, x, -, -, rfl⟩ := h _ row there
        exact ⟨some x, congrArg (Except.map some) (Row.decode_resource x)⟩
  obtain ⟨found, read⟩ := read
  rw [held, read]

/-- **After resources have been stored**, the last one of a name is there, or what was there before. -/
lemma held_putResources (s : Store) (job : String) (rs : List Resource) (name : String) :
    (s.putResources job rs).held job name = (Holdings.last rs name).or (s.held job name) := by
  induction rs generalizing s with
  | nil => rfl
  | cons x rest ih =>
      have first : (s.putResources job [x]).held job name
          = if x.name = name then some x else s.held job name := by
        unfold held getResource get
        simp only [putResources, Table.insertMany, List.map_cons, List.map_nil, List.foldl_cons,
          List.foldl_nil, Table.find?_insert]
        by_cases called : x.name = name
        · rw [if_pos (by rw [called]), if_pos called]
          simp [Row.decode_resource, Except.map]
        · have other : resourceKey job x.name ≠ resourceKey job name := by
            simpa [resourceKey] using called
          rw [if_neg other, if_neg called]
      rw [show s.putResources job (x :: rest) = (s.putResources job [x]).putResources job rest from rfl, ih,
        first, Holdings.last_cons]
      by_cases called : x.name = name <;> simp [called]

lemma clashes_eq_false {x : Resource} :
    s.clashes job x = false ↔ ∀ old, s.held job x.name = some old → old.sameContent x = true := by
  unfold clashes
  cases s.held job x.name <;> simp

end Store

/-! ## Resources that agree -/

namespace Resource

lemma sameContent_refl (x : Resource) : x.sameContent x = true := sameContent_eq_true.mpr ⟨rfl, rfl, rfl⟩

lemma sameContent_symm {x y : Resource} (h : x.sameContent y = true) : y.sameContent x = true := by
  obtain ⟨name, kind, digest⟩ := sameContent_eq_true.mp h
  exact sameContent_eq_true.mpr ⟨name.symm, kind.symm, digest.symm⟩

lemma sameContent_trans {x y z : Resource} (h : x.sameContent y = true) (h' : y.sameContent z = true) :
    x.sameContent z = true := by
  obtain ⟨name, kind, digest⟩ := sameContent_eq_true.mp h
  obtain ⟨name', kind', digest'⟩ := sameContent_eq_true.mp h'
  exact sameContent_eq_true.mpr ⟨name.trans name', kind.trans kind', digest.trans digest'⟩

/-- **Resources agree** when those of one name have one content. -/
def Agree (rs : List Resource) : Prop :=
  ∀ x ∈ rs, ∀ y ∈ rs, x.name = y.name → x.sameContent y = true

lemma agree_cons {x : Resource} {rest : List Resource} :
    Agree (x :: rest) ↔ (∀ y ∈ rest, x.name = y.name → x.sameContent y = true) ∧ Agree rest := by
  constructor
  · intro agree
    exact ⟨fun y member => agree x List.mem_cons_self y (List.mem_cons_of_mem x member),
      fun y member z member' => agree y (List.mem_cons_of_mem x member) z (List.mem_cons_of_mem x member')⟩
  · rintro ⟨first, others⟩ y among z among' same
    rcases List.mem_cons.mp among with rfl | member
    · rcases List.mem_cons.mp among' with rfl | member'
      · exact sameContent_refl _
      · exact first z member' same
    · rcases List.mem_cons.mp among' with rfl | member'
      · exact sameContent_symm (first y member same.symm)
      · exact others y member z member' same

end Resource

/-- A resource that agrees with one that has just been stored is in conflict with nothing new. -/
lemma Store.clashes_putResources {s : Store} {job : String} {x y : Resource} (fine : s.clashes job x = false)
    (agree : x.name = y.name → x.sameContent y = true) :
    (s.putResources job [x]).clashes job y = s.clashes job y := by
  unfold clashes
  rw [held_putResources]
  by_cases called : x.name = y.name
  · have stored : Holdings.last [x] y.name = some x := by simp [Holdings.last, called]
    have none_before : s.clashes job y = false := by
      refine clashes_eq_false.mpr fun old there => ?_
      exact Resource.sameContent_trans (clashes_eq_false.mp fine old (called ▸ there)) (agree called)
    unfold clashes at none_before
    rw [stored, none_before]
    simp [agree called]
  · have stored : Holdings.last [x] y.name = none := by simp [Holdings.last, called]
    rw [stored]
    rfl

/-- A resource that is stored and does not agree is in conflict. -/
lemma Store.agree_of_clashes {s : Store} {job : String} {x y : Resource} (called : x.name = y.name)
    (fine : (s.putResources job [x]).clashes job y = false) : x.sameContent y = true := by
  refine clashes_eq_false.mp fine x ?_
  rw [held_putResources]
  simp [Holdings.last, called]

/-! ## One deployment -/

namespace Operation

variable {α β : Type}

lemma run_bind (c : Cluster) (op : Operation α) (f : α → Operation β) :
    (op >>= f).run.run c = match op.run.run c with
      | (.ok a, d) => (f a).run.run d
      | (.error e, d) => (.error e, d) := by
  show (Program.andThen op.run (ExceptT.bindCont f)).run c = _
  rw [Program.run_andThen]
  rcases op.run.run c with ⟨e | a, d⟩ <;> rfl

/-- In a store that can be read, **the first resource that clashes** is in the way. -/
lemma plan_checkResources_eq {c : Cluster} (labelled : c.store.Labelled) (job : String)
    (rs : List Resource) :
    (plan c (checkResources job rs)).1 = match rs.find? (c.store.clashes job) with
      | some x => .error (.resourceConflict job x.name)
      | none => .ok () := by
  induction rs with
  | nil => rfl
  | cons x rest ih =>
      rw [checkResources, plan_bind, plan_getResource, labelled.getResource_eq, List.find?_cons]
      unfold Store.clashes at ih ⊢
      rcases c.store.held job x.name with _ | old
      · exact ih
      · by_cases same : old.sameContent x = true
        · simpa [Except.mapError, same] using ih
        · simp [Except.mapError, same]

end Operation

namespace Cluster

/-- **A job takes deployments**: its record says so, and the resources that are stored can be read. -/
structure Admits (c : Cluster) (job : String) (r : Record) : Prop where
  labelled : c.store.Labelled
  found : c.findRecord job = .ok r
  sound : r.Sound job
  status : r.status = .registered ∨ r.status = .deployed

namespace Admits

variable {c : Cluster} {job : String} {r : Record}

/-- **What a deployment comes to**: the first of its resources that clashes with a stored one, or all of
them are stored. -/
theorem run_deploy (h : c.Admits job r) (rs : List Resource) (now : ℕ) :
    (Operation.deploy job rs now).run.run c = match rs.find? (c.store.clashes job) with
      | some x => (.error (.resourceConflict job x.name), c)
      | none => (.ok (), c.after [.putResources job rs, .putJob (r.advance .deployed now)]) := by
  have plan : Program.plan c (Operation.deploy job rs now).run = _ := Operation.plan_deploy c job rs now
  rw [Program.run_eq_plan, plan, h.found]
  simp only [h.status, if_true, Operation.plan_checkResources_eq h.labelled]
  cases rs.find? (c.store.clashes job) <;> rfl

/-- After a deployment the job takes more of them. -/
lemma deployed (h : c.Admits job r) (rs : List Resource) (now : UInt64) :
    (c.after [.putResources job rs, .putJob (r.advance .deployed now.toNat)]).Admits job
      (r.advance .deployed now.toNat) := by
  have valid := isName_of_findRecord h.found
  have early : r.status.rank < 3 := by
    rcases h.status with status | status <;> simp [status, JobStatus.rank]
  have sound := h.sound.advance .deployed early (by decide) now
  have stored := (c.store.putResources job rs).getJob_putJob sound.fits job
  rw [if_pos sound.name] at stored
  exact ⟨(h.labelled.putResources valid rs).of_resources rfl, findRecord_of_stores valid stored, sound, .inr rfl⟩

lemma deploy_answer (h : c.Admits job r) (rs : List Resource) (now : ℕ) :
    ((Operation.deploy job rs now).run.run c).1 = match rs.find? (c.store.clashes job) with
      | some x => .error (.resourceConflict job x.name)
      | none => .ok () := by
  rw [h.run_deploy]
  cases rs.find? (c.store.clashes job) <;> rfl

section Accepted

variable {rs : List Resource} {now : UInt64}

/-- A deployment is accepted when none of its resources clashes with a stored one. -/
lemma deploy_ok_iff (h : c.Admits job r) :
    ((Operation.deploy job rs now.toNat).run.run c).1 = .ok () ↔ ∀ x ∈ rs, c.store.clashes job x = false := by
  rw [h.deploy_answer]
  cases clash : rs.find? (c.store.clashes job) with
  | none => simpa using List.find?_eq_none.mp clash
  | some x =>
      have wrong := List.find?_some clash
      simp only [reduceCtorEq, false_iff]
      exact fun fine => by simp [fine x (List.mem_of_find?_eq_some clash)] at wrong

/-- A deployment is refused for a resource that clashes, and nothing is stored. -/
lemma deploy_error (h : c.Admits job r) {e : ClusterError}
    (refused : ((Operation.deploy job rs now.toNat).run.run c).1 = .error e) :
    (∃ x ∈ rs, c.store.clashes job x = true ∧ e = .resourceConflict job x.name)
      ∧ ((Operation.deploy job rs now.toNat).run.run c).2 = c := by
  rw [h.run_deploy] at refused ⊢
  cases clash : rs.find? (c.store.clashes job) with
  | none => simp [clash] at refused
  | some x =>
      rw [clash] at refused
      exact ⟨⟨x, List.mem_of_find?_eq_some clash, List.find?_some clash, (Except.error.inj refused).symm⟩, rfl⟩

lemma run_accepted (h : c.Admits job r) (fine : ∀ x ∈ rs, c.store.clashes job x = false) :
    (Operation.deploy job rs now.toNat).run.run c
      = (.ok (), c.after [.putResources job rs, .putJob (r.advance .deployed now.toNat)]) := by
  have none_clashes : rs.find? (c.store.clashes job) = none :=
    List.find?_eq_none.mpr fun x member => by simp [fine x member]
  rw [h.run_deploy, none_clashes]

/-- What is found after an accepted deployment. -/
lemma getResource_accepted (h : c.Admits job r) (fine : ∀ x ∈ rs, c.store.clashes job x = false) (name : String) :
    ((Operation.deploy job rs now.toNat).run.run c).2.store.getResource job name
      = .ok ((Holdings.last rs name).or (c.store.held job name)) := by
  have after := h.deployed rs now
  rw [h.run_accepted fine, after.labelled.getResource_eq, ← c.store.held_putResources]
  rfl

/-- **What a deployment puts in the place of a stored resource** is taken for it. -/
lemma replaces_old (h : c.Admits job r) (fine : ∀ x ∈ rs, c.store.clashes job x = false) {name : String}
    {old : Resource} (there : c.store.getResource job name = .ok (some old)) :
    ∃ kept, ((Operation.deploy job rs now.toNat).run.run c).2.store.getResource job name = .ok (some kept)
      ∧ (kept = old ∨ kept ∈ rs ∧ old.sameContent kept = true) := by
  rw [h.labelled.getResource_eq, Except.ok.injEq] at there
  rw [h.getResource_accepted fine, there]
  cases put : Holdings.last rs name with
  | none => exact ⟨old, rfl, .inl rfl⟩
  | some x =>
      obtain ⟨member, rfl⟩ := Holdings.last_eq_some put
      exact ⟨x, rfl, .inr ⟨member, Store.clashes_eq_false.mp (fine x member) old there⟩⟩

/-- **Every resource of a deployment is there** exactly when they agree. -/
lemma shows_all_iff (s : Store) (job : String) (rs : List Resource) :
    (∀ x ∈ rs, ∃ kept, (s.putResources job rs).held job x.name = some kept
      ∧ kept.kind = x.kind ∧ kept.digest = x.digest) ↔ Resource.Agree rs := by
  constructor
  · intro all x member y member' called
    obtain ⟨kept, there, kind, digest⟩ := all x member
    obtain ⟨kept', there', kind', digest'⟩ := all y member'
    obtain rfl := Option.some.inj (there.symm.trans (called ▸ there'))
    exact Resource.sameContent_eq_true.mpr ⟨called, kind.symm.trans kind', digest.symm.trans digest'⟩
  · intro agree x member
    obtain ⟨kept, last⟩ := Holdings.exists_last member
    obtain ⟨member', called⟩ := Holdings.last_eq_some last
    obtain ⟨-, kind, digest⟩ := Resource.sameContent_eq_true.mp (agree kept member' x member called)
    exact ⟨kept, by rw [Store.held_putResources, last]; rfl, kind, digest⟩

/-- **A deployment can be repeated** exactly when its resources agree. -/
lemma again_iff (s : Store) (job : String) (rs : List Resource) :
    (∀ x ∈ rs, (s.putResources job rs).clashes job x = false) ↔ Resource.Agree rs := by
  rw [← shows_all_iff s job]
  refine forall₂_congr fun x member => ?_
  obtain ⟨kept, last⟩ := Holdings.exists_last member
  have there : (s.putResources job rs).held job x.name = some kept := by
    rw [Store.held_putResources, last]
    rfl
  have called := (Holdings.last_eq_some last).2
  simp [Store.clashes_eq_false, there, Resource.sameContent_eq_true, called]

/-- A repetition leaves the resources as they are, whatever it is answered. -/
lemma resources_again (h : c.Admits job r) (later : UInt64) :
    ((Operation.deploy job rs later.toNat).run.run
        (c.after [.putResources job rs, .putJob (r.advance .deployed now.toNat)])).2.store.resources
      = (c.store.putResources job rs).resources := by
  rw [(h.deployed rs now).run_deploy]
  cases rs.find? _ with
  | some x => rfl
  | none => exact Table.insertMany_again _ _

end Accepted

end Admits

end Cluster

/-! ## One after the other -/

/-- **Resources deployed one after the other**, each at its time, until one of them is refused. -/
def Operation.deployEach (job : String) : List (UInt64 × Resource) → Operation Unit
  | [] => return ()
  | (now, x) :: rest => do
    deploy job [x] now.toNat
    deployEach job rest

namespace Cluster.Admits

variable {c : Cluster} {job : String} {r : Record}

lemma run_deployEach_cons (h : c.Admits job r) (now : UInt64) (x : Resource)
    (rest : List (UInt64 × Resource)) :
    (Operation.deployEach job ((now, x) :: rest)).run.run c = if c.store.clashes job x then
        (.error (.resourceConflict job x.name), c)
      else (Operation.deployEach job rest).run.run
        (c.after [.putResources job [x], .putJob (r.advance .deployed now.toNat)]) := by
  rw [Operation.deployEach, Operation.run_bind, h.run_deploy, List.find?_cons]
  cases c.store.clashes job x <;> rfl

/-- A deployment in a row that is refused is in conflict. -/
lemma deployEach_error (h : c.Admits job r) {stamped : List (UInt64 × Resource)} {e : ClusterError}
    (refused : ((Operation.deployEach job stamped).run.run c).1 = .error e) :
    ∃ name, e = .resourceConflict job name := by
  induction stamped generalizing c r with
  | nil => cases refused
  | cons p rest ih =>
      obtain ⟨now, x⟩ := p
      rw [h.run_deployEach_cons] at refused
      split_ifs at refused
      · exact ⟨x.name, (Except.error.inj refused).symm⟩
      · exact ih (h.deployed [x] now) refused

/-- **Resources that are all accepted** one after the other agree, and none clashes with what was stored
before. -/
lemma agree_of_deployEach (h : c.Admits job r) {stamped : List (UInt64 × Resource)}
    (accepted : ((Operation.deployEach job stamped).run.run c).1 = .ok ()) :
    Resource.Agree (stamped.map (·.2)) ∧ ∀ x ∈ stamped.map (·.2), c.store.clashes job x = false := by
  induction stamped generalizing c r with
  | nil => simp [Resource.Agree]
  | cons p rest ih =>
      obtain ⟨now, x⟩ := p
      rw [h.run_deployEach_cons] at accepted
      split_ifs at accepted with fine
      rw [Bool.not_eq_true] at fine
      obtain ⟨agree, others⟩ := ih (h.deployed [x] now) accepted
      have same : ∀ y ∈ rest.map (·.2), x.name = y.name → x.sameContent y = true :=
        fun y member called => Store.agree_of_clashes called (others y member)
      refine ⟨Resource.agree_cons.mpr ⟨same, agree⟩, List.forall_mem_cons.mpr ⟨fine, fun y member => ?_⟩⟩
      exact (Store.clashes_putResources fine (same y member)).symm.trans (others y member)

/-- **Resources that agree** are answered one after the other as they are together. -/
lemma deployEach_agree (h : c.Admits job r) {stamped : List (UInt64 × Resource)}
    (agree : Resource.Agree (stamped.map (·.2))) (now : ℕ) :
    ((Operation.deployEach job stamped).run.run c).1
      = ((Operation.deploy job (stamped.map (·.2)) now).run.run c).1 := by
  rw [h.deploy_answer]
  induction stamped generalizing c r with
  | nil => rfl
  | cons p rest ih =>
      obtain ⟨time, x⟩ := p
      obtain ⟨same, agree⟩ := Resource.agree_cons.mp agree
      rw [h.run_deployEach_cons, List.map_cons, List.find?_cons]
      cases fine : c.store.clashes job x with
      | true => rfl
      | false =>
          -- what has just been stored is in nobody's way
          have others : (rest.map (·.2)).find? ((c.store.putResources job [x]).clashes job)
              = (rest.map (·.2)).find? (c.store.clashes job) :=
            List.find?_congr fun y member => Store.clashes_putResources fine (same y member)
          have later := ih (h.deployed [x] time) agree
          rw [show (c.after [.putResources job [x], .putJob (r.advance .deployed time.toNat)]).store.clashes job
            = (c.store.putResources job [x]).clashes job from rfl, others] at later
          exact later

/-- Two deployments are one of the resources of both, at the time of the second. -/
lemma after_deploy_twice (c : Cluster) (job : String) (r : Record) (x : Resource) (rs : List Resource)
    (time now : ℕ) : (c.after [.putResources job [x], .putJob (r.advance .deployed time)]).after
        [.putResources job rs, .putJob ((r.advance .deployed time).advance .deployed now)]
      = c.after [.putResources job (x :: rs), .putJob (r.advance .deployed now)] := by
  simp [Action.perform, Store.putResources, Store.putJob, Record.advance, Table.insert_again,
    Table.insertMany]

/-- **Resources that are accepted** one after the other leave the cluster as they do together, at the time of
the last of them. -/
lemma deployEach_cluster (h : c.Admits job r) {stamped : List (UInt64 × Resource)}
    (accepted : ((Operation.deployEach job stamped).run.run c).1 = .ok ()) {now : UInt64}
    (last : stamped.getLast?.map (·.1) = some now) :
    ((Operation.deployEach job stamped).run.run c).2
      = c.after [.putResources job (stamped.map (·.2)), .putJob (r.advance .deployed now.toNat)] := by
  induction stamped generalizing c r with
  | nil => simp at last
  | cons p rest ih =>
      obtain ⟨time, x⟩ := p
      rw [h.run_deployEach_cons] at accepted ⊢
      split_ifs at accepted ⊢
      cases rest with
      | nil =>
          obtain rfl : time = now := by simpa using last
          rfl
      | cons q rest =>
          rw [ih (h.deployed [x] time) accepted (by simpa using last), after_deploy_twice]
          rfl

end Cluster.Admits

/-! ## Runs -/

namespace World

lemma admits_of_run (executor : Executor) (turns : List Turn) {job : String} {r : Record}
    (found : ((World.start executor).run turns).cluster.findRecord job = .ok r)
    (status : r.status = .registered ∨ r.status = .deployed) :
    ((World.start executor).run turns).cluster.Admits job r :=
  ⟨(furnished_of_run executor turns).labelled, found,
    ((Orderly.start executor).run turns).lawful.sound.record (Cluster.stores_of_findRecord found), status⟩

/-- **What becomes of a deployment.**  Take any run from an empty store, a job that is registered or deployed,
and any resources, which are deployed together, and then once more, or instead one after the other.

The deployment is accepted when none of its resources clashes with a stored one; otherwise it is refused for
such a resource, and nothing is changed.  When it is accepted, the last of each name is there, and every
resource that was stored before still is, with the same content.  It is accepted as well when some of its
resources do not agree.  Exactly when they do, each of them is there with its kind and its digest, and the
deployment is accepted once more; the repetition leaves the resources as they are.

One after the other, the resources are accepted exactly when they are together and agree, and those that
agree have the same answer, and leave the same cluster behind; those that do not are refused. -/
theorem batch_deployed (executor : Executor) (turns : List Turn) {job : String} {r : Record}
    (found : ((World.start executor).run turns).cluster.findRecord job = .ok r)
    (status : r.status = .registered ∨ r.status = .deployed)
    (stamped : List (UInt64 × Resource)) (now later : UInt64) :
    let c := ((World.start executor).run turns).cluster
    let rs := stamped.map (·.2)
    let batch := (Operation.deploy job rs now.toNat).run.run c
    let again := (Operation.deploy job rs later.toNat).run.run batch.2
    let each := (Operation.deployEach job stamped).run.run c
    (batch.1 = .ok () ↔ ∀ x ∈ rs, c.store.clashes job x = false)
    ∧ (∀ e, batch.1 = .error e →
        (∃ x ∈ rs, c.store.clashes job x = true ∧ e = .resourceConflict job x.name) ∧ batch.2 = c)
    ∧ (batch.1 = .ok () →
        (∀ name, batch.2.store.getResource job name
          = .ok ((Holdings.last rs name).or (c.store.held job name)))
        ∧ (∀ name old, c.store.getResource job name = .ok (some old) →
            ∃ kept, batch.2.store.getResource job name = .ok (some kept) ∧ old.sameContent kept = true)
        ∧ ((∀ x ∈ rs, ∃ kept, batch.2.store.getResource job x.name = .ok (some kept)
            ∧ kept.kind = x.kind ∧ kept.digest = x.digest) ↔ Resource.Agree rs)
        ∧ (again.1 = .ok () ↔ Resource.Agree rs)
        ∧ again.2.store.resources = batch.2.store.resources)
    ∧ (each.1 = .ok () ↔ batch.1 = .ok () ∧ Resource.Agree rs)
    ∧ (Resource.Agree rs → each.1 = batch.1
        ∧ (batch.1 = .ok () → stamped.getLast?.map (·.1) = some now → each.2 = batch.2))
    ∧ (¬Resource.Agree rs → ∃ name, each.1 = .error (.resourceConflict job name)) := by
  intro c rs batch again each
  have admits : c.Admits job r := admits_of_run executor turns found status
  have accepted_iff : batch.1 = .ok () ↔ ∀ x ∈ rs, c.store.clashes job x = false := admits.deploy_ok_iff
  have each_iff : each.1 = .ok () ↔ batch.1 = .ok () ∧ Resource.Agree rs := by
    constructor
    · intro accepted
      obtain ⟨agree, fine⟩ := admits.agree_of_deployEach accepted
      exact ⟨accepted_iff.mpr fine, agree⟩
    · rintro ⟨accepted, agree⟩
      exact (admits.deployEach_agree agree now.toNat).trans accepted
  refine ⟨accepted_iff, fun e refused => admits.deploy_error refused, fun accepted => ?_, each_iff,
    fun agree => ⟨admits.deployEach_agree agree now.toNat, fun accepted last => ?_⟩, fun disagree => ?_⟩
  · have fine := accepted_iff.mp accepted
    have done : batch = _ := admits.run_accepted fine
    have after : batch.2.Admits job (r.advance .deployed now.toNat) := by
      rw [done]
      exact admits.deployed rs now
    have found_after : ∀ name, batch.2.store.getResource job name
        = .ok ((c.store.putResources job rs).held job name) :=
      fun name => (admits.getResource_accepted fine name).trans (by rw [c.store.held_putResources])
    refine ⟨admits.getResource_accepted fine, fun name old there => ?_, ?_, ?_, ?_⟩
    · obtain ⟨kept, stands, rfl | ⟨-, same⟩⟩ := admits.replaces_old fine there
      · exact ⟨kept, stands, kept.sameContent_refl⟩
      · exact ⟨kept, stands, same⟩
    · simpa only [found_after, Except.ok.injEq] using Cluster.Admits.shows_all_iff c.store job rs
    · refine after.deploy_ok_iff.trans ?_
      rw [← Cluster.Admits.again_iff c.store job, done]
      rfl
    · show ((Operation.deploy job rs later.toNat).run.run batch.2).2.store.resources = _
      rw [done]
      exact admits.resources_again later
  · have accepted' := each_iff.mpr ⟨accepted, agree⟩
    have done : batch = _ := admits.run_accepted (accepted_iff.mp accepted)
    rw [done]
    exact admits.deployEach_cluster accepted' last
  · cases answer : each.1 with
    | ok done => exact absurd (each_iff.mp answer).2 disagree
    | error e =>
        obtain ⟨name, rfl⟩ := admits.deployEach_error answer
        exact ⟨name, rfl⟩

/-- Two resources of one name and of different content. -/
def twins : List Resource := [⟨"x", .data, .inline [0], "zero"⟩, ⟨"x", .data, .inline [1], "one"⟩]

/-- **Twins** are accepted for a registered job.  The first of them is not there afterwards, and they are
not accepted once more; one after the other they are refused. -/
theorem twins_deployed :
    let c := ((World.start acknowledge).run
      [.tick (.call ⟨"a", .register Cluster.plainConfig, 0, Cluster.plainConfig_fits⟩)]).cluster
    let batch := (Operation.deploy "a" twins (0 : UInt64).toNat).run.run c
    batch.1 = .ok ()
      ∧ batch.2.store.getResource "a" "x" = .ok (some ⟨"x", .data, .inline [1], "one"⟩)
      ∧ ((Operation.deploy "a" twins (1 : UInt64).toNat).run.run batch.2).1 ≠ .ok ()
      ∧ ∃ name, ((Operation.deployEach "a" (twins.map fun x => (0, x))).run.run c).1
          = .error (.resourceConflict "a" name) := by
  intro c batch
  have first : c = (World.start acknowledge).cluster.after
      [.putJob (Record.new "a" Cluster.plainConfig (0 : UInt64).toNat)] := by
    have missing : (World.start acknowledge).cluster.Lacks "a" := rfl
    refine (congrArg World.cluster (turn_call (World.start acknowledge) _)).trans ?_
    exact congrArg (fun p => (World.start acknowledge).cluster.after p.2)
      (Cluster.plan_register_of_lacks missing (by decide) Cluster.plainConfig _)
  have found : c.findRecord "a" = .ok (Record.new "a" Cluster.plainConfig (0 : UInt64).toNat) := by
    rw [first]
    exact Cluster.findRecord_after_register _ (by decide) Cluster.plainConfig_fits 0
  have nothing : ∀ name, c.store.held "a" name = none := by
    intro name
    rw [first]
    rfl
  have disagree : ¬Resource.Agree twins := by simp [Resource.Agree, twins, Resource.sameContent]
  obtain ⟨accepted_iff, -, accepted, -, -, refused⟩ :=
    batch_deployed acknowledge _ found (.inl rfl) (twins.map fun x => (0, x)) 0 1
  simp only [List.map_map, Function.comp_def, List.map_id'] at accepted_iff accepted refused
  have fine := accepted_iff.mpr fun x _ => Store.clashes_eq_false.mpr fun old there => by
    cases (nothing x.name).symm.trans there
  obtain ⟨there, -, -, again, -⟩ := accepted fine
  -- what the batch is, so that nothing runs it when the two are compared
  rw [show batch = (Operation.deploy "a" twins (0 : UInt64).toNat).run.run c from rfl]
  refine ⟨fine, (there "x").trans ?_, fun once_more => disagree (again.mp once_more), refused disagree⟩
  rw [show c.store.held "a" "x" = none from nothing "x"]
  rfl

end World

end ControlPlane
