import Mathlib
import ControlPlane.Proofs.Cluster.Acceptance
import ControlPlane.Proofs.Cluster.Batches
import ControlPlane.Proofs.Cluster.Refusals

/-!
# The account of a job

What a job has been given can be told from the calls alone, without a look at the store: the settings of the last
registration that has been accepted, and the names of the resources in all deployments that have been accepted
since the job was last destroyed.  As long as the names of its resources have no colons, the store holds exactly
this, and so the account decides which graphs are accepted and what an execution is given.

* `Store.Stocked` — what holds of every resource that is stored, because it does of all that are deployed.
* `Account`, `World.account` — the account of a job, from the turns of a run.
* `Account.Tells` — the store holds what the account tells; `Tells.step` — one step keeps this.
* `Cluster.Effect.noted`, `Tells.noted_call` — the steps of a call, and the call, in the account.
* `World.graph_accepted_iff` — the statement about runs; `World.second_life_counts` — a job that is destroyed and
  registered again.
-/

namespace ControlPlane

/-! ## References come back -/

namespace Json

/-- Every whole number stands for itself, as far as its text is cut off in one piece. -/
lemma Number.stands_whole (i : ℤ) : (Number.int i).Stands := by
  refine stands_of_spell (t := ⟨decide (i < 0), Decimal.ofNat i.natAbs, none, none⟩) ?_ ?_
  · refine ⟨⟨Decimal.ofNat_ne_nil _, fun c => Decimal.isDigit_of_mem_ofNat _ c⟩, ?_, by simp, by simp⟩
    intro c cs same
    simpa using Decimal.ofNat_eq_zero_cons same
  · cases i with
    | ofNat n =>
        have positive : ¬((n : ℤ) < 0) := by omega
        simp [chars, Decimal.ofInt, NumberText.spell, NumberText.body, NumberText.fractionChars,
          NumberText.exponentChars, positive]
    | negSucc n =>
        simp [chars, Decimal.ofInt, NumberText.spell, NumberText.body, NumberText.fractionChars,
          NumberText.exponentChars]

mutual

/-- What is true of all numbers is true of those of a value. -/
lemma Value.allNumbers_of {P : Number → Prop} (all : ∀ n, P n) : ∀ v : Value, v.AllNumbers P
  | .null | .bool _ | .string _ => trivial
  | .number n => all n
  | .array items => allInItems_of all items
  | .object members => allInMembers_of all members

lemma allInItems_of {P : Number → Prop} (all : ∀ n, P n) : ∀ items : List Value, AllInItems P items
  | [] => trivial
  | item :: rest => ⟨item.allNumbers_of all, allInItems_of all rest⟩

lemma allInMembers_of {P : Number → Prop} (all : ∀ n, P n) :
    ∀ members : List (String × Value), AllInMembers P members
  | [] => trivial
  | (_, value) :: rest => ⟨value.allNumbers_of all, allInMembers_of all rest⟩

end

end Json

/-- **The references of a graph** are read as they were written, whatever becomes of its body. -/
lemma Graph.references_of_row {g h : Graph} (read : Row.decode Graph.decoder (.of g.toJson) = .ok h) :
    h.references = g.references := by
  have stands : g.toJson.AllNumbers Json.Number.Stands := by
    refine Json.Value.allNumbers_of (fun n => ?_) _
    cases n with
    | int i => exact Json.Number.stands_whole i
    | double x => exact Json.Number.stands x
  rw [Row.decode_of stands, show Json.maxDepth + 1 = 125 + 3 from rfl, Graph.decoder_tree] at read
  generalize Json.Decoder.value (125 + 2) g.body.tree = read_body at read
  cases read_body with
  | error fault => cases read
  | ok body =>
      cases read
      rfl

/-! ## Resources that are stored -/

namespace Store

variable {P : String → Resource → Prop} {s t : Store} {job : String}

/-- **What holds of all resources that are stored**, each of them under the key of its job and its name. -/
def Stocked (P : String → Resource → Prop) (s : Store) : Prop :=
  ∀ key row, s.resources.find? key = some row →
    ∃ (job : String) (x : Resource), Job.isName job = true ∧ key = resourceKey job x.name
      ∧ row = .of x.toJson ∧ P job x

lemma held_congr (same : t.resources = s.resources) : t.held = s.held := by
  funext job name
  simp only [held, getResource, same]

namespace Stocked

lemma labelled (h : s.Stocked P) : s.Labelled := by
  intro key row found
  obtain ⟨job, x, valid, label, made, -⟩ := h key row found
  exact ⟨job, x, valid, label, made⟩

lemma of_resources (h : s.Stocked P) (same : t.resources = s.resources) : t.Stocked P := by
  intro key row found
  exact h key row (same ▸ found)

lemma putResources (h : s.Stocked P) (valid : Job.isName job = true) {rs : List Resource}
    (all : ∀ x ∈ rs, P job x) : (s.putResources job rs).Stocked P := by
  intro key row found
  rcases Table.find?_of_insertMany found with before | member
  · exact h key row before
  · obtain ⟨x, among, same⟩ := List.mem_map.mp member
    obtain ⟨rfl, rfl⟩ : resourceKey job x.name = key ∧ Row.of x.toJson = row := by simpa using same
    exact ⟨job, x, valid, rfl, rfl, all x among⟩

lemma purge (h : s.Stocked P) (job : String) : (s.purge job).2.Stocked P := by
  intro key row found
  simp only [Store.purge, Table.find?_filter] at found
  split_ifs at found
  exact h key row found

/-- The row of a resource under a name. -/
lemma of_row (h : s.Stocked P) (valid : Job.isName job = true) {name : String} {row : Row}
    (found : s.resources.find? (resourceKey job name) = some row) :
    ∃ x, x.name = name ∧ row = .of x.toJson ∧ P job x ∧ s.held job name = some x := by
  obtain ⟨owner, x, valid', label, rfl, holds⟩ := h _ row found
  obtain ⟨rfl, rfl⟩ := resourceKey_inj valid valid' label
  refine ⟨x, rfl, rfl, holds, ?_⟩
  simp [held, getResource, get, found, Row.decode_resource, Except.map]

lemma row_of_held (h : s.Stocked P) (valid : Job.isName job = true) {name : String} {x : Resource}
    (there : s.held job name = some x) :
    s.resources.find? (resourceKey job name) = some (.of x.toJson) := by
  cases found : s.resources.find? (resourceKey job name) with
  | none => simp [held, getResource, get, found] at there
  | some row =>
      obtain ⟨y, -, rfl, -, same⟩ := h.of_row valid found
      rw [Option.some.inj (there.symm.trans same)]

lemma of_held (h : s.Stocked P) (valid : Job.isName job = true) {name : String} {x : Resource}
    (there : s.held job name = some x) : x.name = name ∧ P job x := by
  obtain ⟨y, called, -, holds, same⟩ := h.of_row valid (h.row_of_held valid there)
  obtain rfl := Option.some.inj (there.symm.trans same)
  exact ⟨called, holds⟩

/-- **What is listed of a job** is what is held of it, in the order of the names, when these have no colons. -/
lemma exists_lists (h : s.Stocked P) (valid : Job.isName job = true)
    (clear : ∀ x, P job x → ':' ∉ x.name.toList) :
    ∃ l, s.listResources job = .ok l ∧ Lists Resource.name (s.held job) l := by
  refine Table.exists_lists (fun x : Resource => .of x.toJson) (resourceKey job) resourceKey_lt_iff ?_ ?_
  · exact fun name x there => ⟨(h.of_held valid there).1, Row.decode_resource x⟩
  · intro key row
    rw [Table.find?_filter]
    constructor
    · intro found
      split_ifs at found with owned
      obtain ⟨name, rfl⟩ := resourceKey_of_isOwned owned
      obtain ⟨x, -, made, -, there⟩ := h.of_row valid found
      exact ⟨name, x, there, rfl, made⟩
    · rintro ⟨name, x, there, rfl, rfl⟩
      obtain ⟨rfl, holds⟩ := h.of_held valid there
      rw [if_pos (by simp [isOwned_resourceKey, clear x holds]), h.row_of_held valid there]

/-- Of a job that has been removed nothing is held. -/
lemma held_purge (h : s.Stocked P) (valid : Job.isName job = true)
    (clear : ∀ x, P job x → ':' ∉ x.name.toList) (name : String) : (s.purge job).2.held job name = none := by
  refine Option.eq_none_iff_forall_ne_some.mpr fun x there => ?_
  obtain ⟨called, holds⟩ := (h.purge job).of_held valid there
  have row := (h.purge job).row_of_held valid there
  rw [purge_resource, if_neg (called ▸ clear x holds)] at row
  cases row

end Stocked

end Store

/-- **The resources that a step stores** are as they should be. -/
def Action.Brings (P : String → Resource → Prop) : Action → Prop
  | putResources job rs => ∀ x ∈ rs, P job x
  | _ => True

lemma Store.Stocked.step {P : String → Resource → Prop} {c : Cluster} (h : c.store.Stocked P) {a : Action}
    (named : a.Named) (brings : a.Brings P) : (a.perform c).2.store.Stocked P := by
  cases a
  case putResources job rs => exact h.putResources named brings
  case purge job => exact h.purge job
  all_goals exact h.of_resources (Action.perform_resources ..)

/-! ## Accounts -/

/-- **What a job has been given**: its settings, and the names of its resources. -/
structure Account where
  config : Option JobConfig
  names : List String

namespace Account

/-- The account of a job that is not there. -/
def blank : Account := ⟨none, []⟩

/-- **The account after a call** that has been accepted. -/
def enter (a : Account) : Call → Account
  | .register config => { a with config := some config }
  | .deploy resources => { a with names := a.names ++ resources.map (·.name) }
  | .destroy => blank
  | _ => a

/-- The account after a step on the store. -/
def note (job : String) (a : Account) : Action → Account
  | .putJob r => if r.name = job then { a with config := some r.config } else a
  | .putResources key rs => if key = job then { a with names := a.names ++ rs.map (·.name) } else a
  | .purge key => if key = job then blank else a
  | _ => a

end Account

/-- Whether a request is carried out. -/
def Cluster.accepts (c : Cluster) (q : Request) : Bool :=
  match (c.issue q.now.toNat q.job q.call).1 with
  | .answered (.ok _) => true
  | _ => false

/-- The step of a call with which it has taken place, though the process may end before the call is answered. -/
def Call.settledBy : Call → ℕ
  | .destroy => 2
  | _ => 1

/-- **The account after a turn**: only calls on the job count, and only those that are accepted. -/
def Account.turn (job : String) (a : Account) (c : Cluster) : Turn → Account
  | .tick (.call q) => if q.job = job ∧ c.accepts q = true then a.enter q.call else a
  | .cut (.call q) n =>
    if q.job = job ∧ c.accepts q = true ∧ q.call.settledBy ≤ n then a.enter q.call else a
  | _ => a

/-- **The account after some turns.** -/
def World.account (job : String) (w : World) (a : Account) : List Turn → Account
  | [] => a
  | t :: turns => (w.turn t).account job (a.turn job w.cluster t) turns

/-! ## What an account tells -/

/-- The names of the resources of one job have no colons. -/
def Resource.ClearFor (job key : String) (x : Resource) : Prop := key = job → ':' ∉ x.name.toList

namespace Account

/-- **The store holds what an account tells.** -/
structure Tells (a : Account) (job : String) (s : Store) : Prop where
  stocked : s.Stocked (Resource.ClearFor job)
  config : ∀ r, s.getJob job = .ok (some r) → a.config = some r.config
  names : ∀ name, (s.held job name).isSome = true ↔ name ∈ a.names

namespace Tells

variable {a : Account} {job : String} {s t : Store} {c : Cluster}

lemma start (job : String) : blank.Tells job .empty where
  stocked := by simp [Store.Stocked, Store.empty]
  config := by simp [Store.getJob, Store.get, Store.empty]
  names := by simp [Store.held, Store.getResource, Store.get, Store.empty, blank]

lemma of_tables (h : a.Tells job s) (jobs : t.jobs = s.jobs) (resources : t.resources = s.resources) :
    a.Tells job t where
  stocked := h.stocked.of_resources resources
  config := fun r stored => h.config r ((Store.getJob_congr (by rw [jobs])).trans stored)
  names := by
    rw [Store.held_congr resources]
    exact h.names

/-- The rows of another job do not count. -/
lemma of_sameRows (h : a.Tells job s) (same : s.SameRows job t) (stocked : t.Stocked (Resource.ClearFor job)) :
    a.Tells job t where
  stocked := stocked
  config := by
    rw [same.getJob]
    exact h.config
  names := by
    intro name
    rw [Store.held, same.getResource]
    exact h.names name

/-- **One step** on the store is one in the account. -/
theorem step (h : a.Tells job c.store) (valid : Job.isName job = true) {x : Action} (named : x.Named)
    (fits : ∀ r, x = .putJob r → r.Fits) (brings : x.Brings (Resource.ClearFor job)) :
    (a.note job x).Tells job (x.perform c).2.store := by
  have stocked := h.stocked.step named brings
  cases x
  case putJob r =>
    have record := c.store.getJob_putJob (fits r rfl) job
    refine ⟨stocked, fun r' stored => ?_, fun name => ?_⟩
    · have stored : (c.store.putJob r).getJob job = .ok (some r') := stored
      simp only [note]
      split_ifs at record ⊢ with own
      · rw [record] at stored
        cases stored
        rfl
      · exact h.config r' (record.symm.trans stored)
    · refine (h.names name).trans ?_
      simp only [note]
      split_ifs <;> rfl
  case putResources key rs =>
    by_cases own : key = job
    · subst own
      refine ⟨stocked, fun r stored => ?_, fun name => ?_⟩
      · simpa [note] using h.config r stored
      show ((c.store.putResources key rs).held key name).isSome = true ↔ _
      have put : (Holdings.last rs name).isSome = true ↔ name ∈ rs.map (·.name) := by
        rw [List.mem_map, Option.isSome_iff_exists]
        constructor
        · rintro ⟨x, last⟩
          exact ⟨x, Holdings.last_eq_some last⟩
        · rintro ⟨x, member, rfl⟩
          exact Holdings.exists_last member
      rw [Store.held_putResources, Option.isSome_or, Bool.or_eq_true, put, h.names, or_comm]
      simp [note]
    · have same : c.store.SameRows job _ := Action.perform_sameRows (a := .putResources key rs) valid named
        ⟨own, named⟩ (by simp) c
      simpa [note, own] using h.of_sameRows same stocked
  case purge key =>
    by_cases own : key = job
    · subst own
      refine ⟨stocked, fun r stored => ?_, fun name => ?_⟩
      · have stored : (c.store.purge key).2.getJob key = .ok (some r) := stored
        simp [Store.getJob_purge] at stored
      · show ((c.store.purge key).2.held key name).isSome = true ↔ _
        rw [h.stocked.held_purge valid fun x clear => clear rfl]
        simp [note, blank]
    · have same : c.store.SameRows job _ := Action.perform_sameRows (a := .purge key) valid named trivial
        (by simpa using own) c
      simpa [note, own] using h.of_sameRows same stocked
  all_goals exact h.of_tables (Action.perform_jobs ..) (Action.perform_resources ..)

end Tells

end Account

/-! ## Calls in the account -/

/-- A call that changes something is carried out exactly when it does. -/
lemma Cluster.accepts_iff (c : Cluster) (q : Request) (i : Intent) (same : q.call = i.call) :
    c.accepts q = true ↔ q.actions c ≠ [] := by
  have atOnce : q.call ≠ .await := by cases i <;> simp [same, Intent.call]
  have silent := i.actions_eq_nil_iff c q.job q.now.toNat
  rw [← same] at silent
  rw [accepts, c.issue_answer q.now.toNat q.job atOnce, Request.actions, ne_eq, silent]
  rcases (Operation.plan c (q.call.operation q.job q.now.toNat)).1 with e | reply <;> simp

section Noted

variable {c d : Cluster} {a : Account} {job key : String}

/-- A record that is written with the settings it had changes nothing. -/
lemma Account.Tells.note_again (tells : a.Tells job c.store) (sound : c.Sound) {r s : Record}
    (stored : c.Stores key r) (name : s.name = r.name) (config : s.config = r.config) {b : Account}
    (same : b.config = a.config) : b.note job (.putJob s) = b := by
  simp only [note, name, config, (sound.record stored).name]
  split_ifs with own
  · rw [← tells.config r (own ▸ stored), ← same]
  · rfl

/-- **The steps of a call in the account**, as far as they are taken. -/
lemma Cluster.Effect.noted {call : Call} {actions : List Action} (effect : c.Effect key call actions)
    (sound : c.Sound) (tells : a.Tells job c.store) (n : ℕ) :
    (actions.take n).foldl (Account.note job) a
      = if key = job ∧ actions ≠ [] ∧ call.settledBy ≤ n then a.enter call else a := by
  cases effect with
  | nothing => simp
  | create missing fits now =>
      rcases n with _ | n
      · simp [Call.settledBy]
      · simp [Account.note, Record.new, Account.enter, Call.settledBy]
  | configure stored status fits now =>
      rcases n with _ | n
      · simp [Call.settledBy]
      · simp [Account.note, (sound.record stored).name, Account.enter, Call.settledBy]
  | @deploy r valid stored status rs now =>
      have record : ∀ b : Account, b.config = a.config →
          b.note job (.putJob (r.advance .deployed now.toNat)) = b :=
        fun b => tells.note_again sound stored rfl rfl
      have resources : a.note job (.putResources key rs) = if key = job then a.enter (.deploy rs) else a := rfl
      have after := record (if key = job then a.enter (.deploy rs) else a) (by split_ifs <;> rfl)
      rcases n with _ | _ | n
      · simp [Call.settledBy]
      · simp [resources, Call.settledBy]
      · simp [resources, after, Call.settledBy]
  | @submit r stored status graph now =>
      have record : a.note job (.putJob (r.advance .submitted now.toNat)) = a :=
        tells.note_again sound stored rfl rfl rfl
      have body : a.note job (.putGraph key graph) = a := rfl
      rcases n with _ | _ | n <;> simp [body, record, Account.enter]
  | @start r stored status fresh graph resources now =>
      have record : a.note job (.putJob ({ r with executionStarted := true }.advance .running now.toNat)) = a :=
        tells.note_again sound stored rfl rfl rfl
      have launch : a.note job (.launch ⟨key, r.config, graph, resources⟩) = a := rfl
      rcases n with _ | _ | n <;> simp [record, launch, Account.enter]
  | interrupt found unfinished =>
      rcases n with _ | n <;> simp [Account.note, Account.enter]
  | destroy valid =>
      rcases n with _ | _ | n
      · simp [Call.settledBy]
      · simp [Account.note, Call.settledBy]
      · simp [Account.note, Account.enter, Call.settledBy]

/-- **A publication** leaves the account as it is. -/
lemma Cluster.Reports.noted {execution now : ℕ} {actions : List Action}
    (reports : c.Reports execution now actions) (sound : c.Sound) (tells : a.Tells job c.store) (n : ℕ) :
    (actions.take n).foldl (Account.note job) a = a := by
  cases reports with
  | nothing => simp
  | @outcome t result slot r found phase there stored told =>
      have record : a.note job (.putJob (r.finish (Operation.outcomeOf slot.interrupted result) now)) = a :=
        tells.note_again sound stored rfl rfl rfl
      have rest : a.note job (.putAccumulators t.job slot.accumulators) = a
          ∧ a.note job (.setOutcome t.job (Operation.outcomeOf slot.interrupted result)) = a := ⟨rfl, rfl⟩
      rcases n with _ | _ | _ | n <;> simp [Cluster.outcomeSteps, record, rest]

/-- **A call in the account**, also one that is cut. -/
lemma Account.Tells.noted_call (tells : a.Tells job c.store) (sound : c.Sound) (q : Request) (n : ℕ) :
    ((q.actions c).take n).foldl (note job) a
      = if q.job = job ∧ c.accepts q = true ∧ q.call.settledBy ≤ n then a.enter q.call else a := by
  have accepted : ∀ i : Intent, q.call = i.call → ((q.actions c).take n).foldl (note job) a
      = if q.job = job ∧ c.accepts q = true ∧ q.call.settledBy ≤ n then a.enter q.call else a := by
    intro i same
    rw [(q.effect c).noted sound tells n]
    simp only [c.accepts_iff q i same]
  have silent : q.actions c = [] → a.enter q.call = a → ((q.actions c).take n).foldl (note job) a
      = if q.job = job ∧ c.accepts q = true ∧ q.call.settledBy ≤ n then a.enter q.call else a := by
    intro none_ still
    simp [none_, still]
  cases call : q.call with
  | register config => exact call ▸ accepted (.init config) call
  | deploy resources => exact call ▸ accepted (.deploy resources) call
  | submit graph => exact call ▸ accepted (.submit graph) call
  | start => exact call ▸ accepted .execute call
  | interrupt => exact call ▸ accepted .interrupt call
  | destroy => exact call ▸ accepted .destroy call
  | await => exact call ▸ silent (by rw [Request.actions, call, Call.actions_eq]) (by rw [call]; rfl)
  | accumulators => exact call ▸ silent (by rw [Request.actions, call, Call.actions_eq]) (by rw [call]; rfl)

/-- **A tick in the account**, also one that is cut. -/
lemma Account.Tells.noted_tick (tells : a.Tells job c.store) (attended : c.Attended) (sound : c.Sound) (t : Tick)
    (n : ℕ) : ((t.actions c).take n).foldl (note job) a = a.turn job c (.cut t n) := by
  cases t with
  | call q => exact tells.noted_call sound q n
  | publish execution now => exact (attended.reports execution now.toNat).noted sound tells n
  | resolve | write | openGate | exchange | restart => simp [Tick.actions, Account.turn]

/-- A tick that is not cut counts as one that is cut late. -/
lemma Account.turn_late (a : Account) (job : String) (c : Cluster) (t : Tick) (n : ℕ) :
    a.turn job c (.cut t (n + 2)) = a.turn job c (.tick t) := by
  cases t with
  | call q =>
      have settled : q.call.settledBy ≤ n + 2 := by
        cases q.call <;> simp [Call.settledBy]
      simp only [Account.turn, settled, and_true]
  | resolve | publish | write | openGate | exchange | restart => rfl

end Noted

/-! ## Runs in the account -/

namespace World

variable {w v : World} {job : String} {a : Account}

/-- **The store holds what an account tells**, if no resource of the job with a colon in its name has been
stored. -/
def Books (w : World) (job : String) (a : Account) : Prop :=
  (∀ s ∈ w.past, s.action.Brings (Resource.ClearFor job)) → a.Tells job w.cluster.store

namespace Books

lemma of_store (h : w.Books job a) (past : v.past = w.past) (store : v.cluster.store = w.cluster.store) :
    v.Books job a := by
  unfold Books
  rw [past, store]
  exact h

lemma perform (h : w.Books job a) (valid : Job.isName job = true) {actions : List Action}
    (obeys : Obeys Permits w actions) (named : ∀ x ∈ actions, x.Named) :
    (w.perform actions).Books job (actions.foldl (Account.note job) a) := by
  induction obeys generalizing a with
  | nil => simpa using h
  | @cons w x rest first later ih =>
      rw [perform_cons]
      refine ih (fun brings => ?_) fun y member => named y (List.mem_cons_of_mem x member)
      have before := h fun s member => brings s (List.mem_append_left _ member)
      have here := brings ⟨w.cluster, x⟩ (List.mem_append_right _ List.mem_cons_self)
      refine before.step valid (named x List.mem_cons_self) ?_ here
      rintro r rfl
      exact first.1.fits

/-- The first steps of a tick, on whatever cluster the world goes on. -/
lemma take (h : w.Books job a) (orderly : w.Orderly) (valid : Job.isName job = true) (t : Tick) (n : ℕ) {d : Cluster}
    (after : d.store = (w.cluster.after ((t.actions w.cluster).take n)).store) :
    ((w.perform ((t.actions w.cluster).take n)).onCluster d).Books job (a.turn job w.cluster (.cut t n)) := by
  have takes := orderly.attended.takes t
  have taken := (h.perform valid ((orderly.lawful.takes takes).take n) fun x member =>
    takes.named x (List.mem_of_mem_take member)).of_store
      (v := (w.perform ((t.actions w.cluster).take n)).onCluster d) rfl after
  intro brings
  have tells := h fun s member => brings s (List.mem_append_left _ member)
  rw [← tells.noted_tick orderly.attended orderly.lawful.sound t n]
  exact taken brings

/-- **One turn.** -/
theorem turn (h : w.Books job a) (orderly : w.Orderly) (valid : Job.isName job = true) (t : Turn) :
    (w.turn t).Books job (a.turn job w.cluster t) := by
  cases t with
  | tick t =>
      have whole : (t.actions w.cluster).take ((t.actions w.cluster).length + 2) = t.actions w.cluster :=
        List.take_of_length_le (Nat.le_add_right ..)
      have taken := h.take orderly valid t ((t.actions w.cluster).length + 2) (d := w.cluster.react t)
        (by rw [whole, w.cluster.react_store t])
      rwa [whole, a.turn_late] at taken
  | cut t n => exact h.take orderly valid t n rfl

/-- **Turns one after the other.** -/
theorem run (h : w.Books job a) (orderly : w.Orderly) (valid : Job.isName job = true) (turns : List Turn) :
    (w.run turns).Books job (w.account job a turns) := by
  induction turns generalizing w a with
  | nil => exact h
  | cons t turns ih => exact ih (h.turn orderly valid t) (orderly.turn t)

end Books

end World

/-! ## What the account decides -/

/-- What it takes that a start is accepted. -/
lemma Cluster.start_accepted {c : Cluster} {job : String} {r : Record} (found : c.findRecord job = .ok r) {now : ℕ}
    (accepted : (c.issue now job .start).1 = .answered (.ok .done)) :
    r.executionStarted = false ∧ r.status = .submitted ∧ ∃ graph resources,
      c.store.getGraph job = .ok (some graph) ∧ c.store.listResources job = .ok resources := by
  rw [c.issue_answer now job (by simp), Call.operation, Operation.plan_map, Operation.plan_start, found] at accepted
  by_cases started : r.executionStarted = true
  · simp [started, Except.map] at accepted
  by_cases status : r.status = .submitted
  · rcases graph : c.store.getGraph job with e | _ | g
    · simp [started, status, graph, Except.map] at accepted
    · simp [started, status, graph, Except.map] at accepted
    · rcases listed : c.store.listResources job with e | resources
      · simp [started, status, graph, listed, Except.map] at accepted
      · exact ⟨by simpa using started, status, g, resources, rfl, rfl⟩
  · simp [started, status, Except.map] at accepted

namespace Account.Tells

variable {a : Account} {job : String} {c : Cluster}

/-- **What is listed of a job** has the names of the account, each of them once and in their order. -/
lemma exists_listed (h : a.Tells job c.store) (valid : Job.isName job = true) :
    ∃ l, c.store.listResources job = .ok l ∧ l.Pairwise (fun x y => bytes x.name < bytes y.name)
      ∧ (∀ x, x ∈ l ↔ c.store.getResource job x.name = .ok (some x))
      ∧ ∀ name, name ∈ a.names ↔ ∃ x ∈ l, x.name = name := by
  obtain ⟨l, listed, lists⟩ := h.stocked.exists_lists valid fun x clear => clear rfl
  refine ⟨l, listed, lists.ordered, fun x => ?_, fun name => ?_⟩
  · rw [lists.mem_iff, h.stocked.labelled.getResource_eq, Except.ok.injEq]
  · rw [← h.names, Option.isSome_iff_exists]
    constructor
    · rintro ⟨x, there⟩
      obtain ⟨rfl, -⟩ := h.stocked.of_held valid there
      exact ⟨x, (lists.mem_iff x).mpr there, rfl⟩
    · rintro ⟨x, member, rfl⟩
      exact ⟨x, (lists.mem_iff x).mp member⟩

/-- **A submission** is refused for the references that are not in the account, and accepted when there are
none. -/
lemma submit_answer (h : a.Tells job c.store) {r : Record} (found : c.findRecord job = .ok r)
    (status : r.status = .deployed) (g : Graph) (now : ℕ) :
    ∃ missing, missing.Pairwise (fun m n => bytes m < bytes n)
      ∧ (∀ name, name ∈ missing ↔ name ∈ g.references.names ∧ name ∉ a.names)
      ∧ (c.issue now job (.submit g)).1
        = .answered (if missing = [] then .ok .done else .error (.graphRejected job missing)) := by
  obtain ⟨l, listed, -, -, names⟩ := h.exists_listed (Cluster.isName_of_findRecord found)
  refine ⟨Operation.missingReferences g l, ?_, fun name => ?_, ?_⟩
  · have ordered := List.pairwise_map.mpr g.references.ordered
    exact (ordered.filter _).imp fun less => bytes_lt_iff.mpr less
  · simp [Operation.missingReferences, names]
  · rw [c.issue_answer now job (by simp), Call.operation, Operation.plan_map, Operation.plan_submit, found]
    simp only [status, if_true, listed, List.isEmpty_iff]
    split_ifs <;> rfl

/-- **A start** hands over what is in the account. -/
lemma start_context (h : a.Tells job c.store) (furnished : c.store.Furnished) {r : Record}
    (found : c.findRecord job = .ok r) {now : ℕ} (accepted : (c.issue now job .start).1 = .answered (.ok .done)) :
    ∃ s graph resources, Call.start.actions c job now
        = [.putJob s, .launch ⟨job, r.config, graph, resources⟩]
      ∧ resources.Pairwise (fun x y => bytes x.name < bytes y.name)
      ∧ (∀ x, x ∈ resources ↔ c.store.getResource job x.name = .ok (some x))
      ∧ (∀ name, name ∈ a.names ↔ ∃ x ∈ resources, x.name = name)
      ∧ ∀ name ∈ graph.references.names, name ∈ a.names := by
  obtain ⟨l, listed, ordered, contents, names⟩ := h.exists_listed (Cluster.isName_of_findRecord found)
  obtain ⟨fresh, status, graph, -, stored, -⟩ := Cluster.start_accepted found accepted
  refine ⟨_, graph, l, congrArg Prod.snd (Cluster.plan_start_submitted found fresh status stored listed now), ordered, contents, names,
    fun name member => ?_⟩
  -- the graph that is read has the references of the one that was submitted
  have equipped := furnished.equipped (Cluster.stores_of_findRecord found) (by simp [status, JobStatus.rank])
  obtain ⟨g, row, all⟩ := equipped.graph
  rw [Store.getGraph, Store.get, row] at stored
  have references : graph.references = g.references := by
    refine Graph.references_of_row ?_
    cases read : Row.decode Graph.decoder (.of g.toJson) with
    | error e => simp [read, Except.map] at stored
    | ok other => simpa [read, Except.map] using stored
  obtain ⟨x, -, there⟩ := all name (references ▸ member)
  rw [furnished.labelled.getResource_eq, Except.ok.injEq] at there
  exact (h.names name).mp (by simp [there])

end Account.Tells

namespace World

/-- **Which graphs are accepted, and what an execution is given.**  Take any run from an empty store in which no
resource with a colon in its name has been stored for a job, and let the job be there.

The account of the job has its settings.  When the job is deployed, a graph is accepted exactly when all its
references are in the account, and otherwise it is rejected for those that are not, each of them once and in
ascending order.  When a start is accepted, the executor is called with the settings of the account, and with one
resource for each of its names in ascending order; these are the ones that are stored, and all references of the
graph are among them. -/
theorem graph_accepted_iff (executor : Executor) (turns : List Turn) {job : String} {r : Record}
    (clear : ∀ s ∈ ((World.start executor).run turns).past, s.action.Brings (Resource.ClearFor job))
    (found : ((World.start executor).run turns).cluster.findRecord job = .ok r) (now : UInt64) :
    let c := ((World.start executor).run turns).cluster
    let a := (World.start executor).account job .blank turns
    a.config = some r.config
    ∧ (r.status = .deployed → ∀ g : Graph,
        ((c.issue now.toNat job (.submit g)).1 = .answered (.ok .done)
          ↔ ∀ name ∈ g.references.names, name ∈ a.names)
        ∧ ((∃ name ∈ g.references.names, name ∉ a.names) → ∃ missing,
          (c.issue now.toNat job (.submit g)).1 = .answered (.error (.graphRejected job missing))
          ∧ missing.Pairwise (fun m n => bytes m < bytes n)
          ∧ ∀ name, name ∈ missing ↔ name ∈ g.references.names ∧ name ∉ a.names))
    ∧ ((c.issue now.toNat job .start).1 = .answered (.ok .done) → ∃ s context,
        Call.start.actions c job now.toNat = [.putJob s, .launch context]
        ∧ context.job = job ∧ a.config = some context.config
        ∧ context.resources.Pairwise (fun x y => bytes x.name < bytes y.name)
        ∧ (∀ x, x ∈ context.resources ↔ c.store.getResource job x.name = .ok (some x))
        ∧ (∀ name, name ∈ a.names ↔ ∃ x ∈ context.resources, x.name = name)
        ∧ ∀ name ∈ context.graph.references.names, ∃ x ∈ context.resources, x.name = name) := by
  intro c a
  have books : (World.start executor).Books job .blank := fun _ => .start job
  have tells : a.Tells job c.store :=
    books.run (Orderly.start executor) (Cluster.isName_of_findRecord found) turns clear
  have settings : a.config = some r.config := tells.config r (Cluster.stores_of_findRecord found)
  refine ⟨settings, fun status g => ?_, fun accepted => ?_⟩
  · obtain ⟨missing, ordered, members, answer⟩ := tells.submit_answer found status g now.toNat
    have none_iff : missing = [] ↔ ∀ name ∈ g.references.names, name ∈ a.names := by
      simp only [List.eq_nil_iff_forall_not_mem, members, not_and, not_not]
    refine ⟨?_, fun ⟨name, referred, absent⟩ => ⟨missing, ?_, ordered, members⟩⟩
    · rw [answer, ← none_iff]
      by_cases complete : missing = [] <;> simp [complete]
    · rw [answer, if_neg]
      exact fun complete => absent (none_iff.mp complete name referred)
  · obtain ⟨s, graph, resources, actions, ordered, contents, names, covered⟩ :=
      tells.start_context (furnished_of_run executor turns) found accepted
    exact ⟨s, ⟨job, r.config, graph, resources⟩, actions, rfl, settings, ordered, contents, names,
      fun name member => (names name).mp (covered name member)⟩

lemma account_append (w : World) (job : String) (a : Account) (first second : List Turn) :
    w.account job a (first ++ second) = (w.run first).account job (w.account job a first) second := by
  induction first generalizing w a with
  | nil => rfl
  | cons t first ih => exact ih (w.turn t) (a.turn job w.cluster t)

/-- A job that is registered and gets one resource. -/
def life (job : String) (x : Resource) : List Turn :=
  [.tick (.call ⟨job, .register Cluster.plainConfig, 0, Cluster.plainConfig_fits⟩),
    .tick (.call ⟨job, .deploy [x], 0, trivial⟩)]

/-- What is written then. -/
def lifeSteps (job : String) (x : Resource) : List Action :=
  let r := Record.new job Cluster.plainConfig (0 : UInt64).toNat
  [.putJob r, .putResources job [x], .putJob (r.advance .deployed (0 : UInt64).toNat)]

/-- **A job that is not there** begins a life. -/
lemma run_life (w : World) (job : String) (x : Resource) (missing : w.cluster.Lacks job)
    (valid : Job.isName job = true) (free : w.cluster.store.getResource job x.name = .ok none) (a : Account) :
    w.run (life job x) = w.perform (lifeSteps job x)
      ∧ w.account job a (life job x) = ⟨some Cluster.plainConfig, a.names ++ [x.name]⟩ := by
  set r := Record.new job Cluster.plainConfig (0 : UInt64).toNat with fresh
  set register : Request := ⟨job, .register Cluster.plainConfig, 0, Cluster.plainConfig_fits⟩
  set deploy : Request := ⟨job, .deploy [x], 0, trivial⟩
  have first : register.actions w.cluster = [.putJob r] :=
    congrArg Prod.snd (Cluster.plan_register_of_lacks missing valid Cluster.plainConfig _)
  have registered : w.turn (.tick (.call register)) = w.perform [.putJob r] := by rw [turn_call, first]
  have found : (w.perform [.putJob r]).cluster.findRecord job = .ok r :=
    w.cluster.findRecord_after_register valid Cluster.plainConfig_fits 0
  have absent : (w.perform [.putJob r]).cluster.store.getResource job x.name = .ok none := free
  have second : deploy.actions (w.perform [.putJob r]).cluster
      = [.putResources job [x], .putJob (r.advance .deployed (0 : UInt64).toNat)] := by
    refine (congrArg Prod.snd (Cluster.plan_deploy_of_registered found rfl x _)).trans ?_
    simp [Cluster.deployAnswer, absent]
    rfl
  have accepted : w.cluster.accepts register = true :=
    (w.cluster.accepts_iff register (.init Cluster.plainConfig) rfl).mpr (by simp [first])
  have accepted' : (w.perform [.putJob r]).cluster.accepts deploy = true :=
    ((w.perform [.putJob r]).cluster.accepts_iff deploy (.deploy [x]) rfl).mpr (by simp [second])
  have configured : a.turn job w.cluster (.tick (.call register)) = ⟨some Cluster.plainConfig, a.names⟩ := by
    simp [Account.turn, accepted, register, Account.enter]
  have supplied : Account.turn job ⟨some Cluster.plainConfig, a.names⟩ (w.perform [.putJob r]).cluster
      (.tick (.call deploy)) = ⟨some Cluster.plainConfig, a.names ++ [x.name]⟩ := by
    simp [Account.turn, accepted', deploy, Account.enter]
  constructor
  · rw [life, run_cons, run_cons, run_nil, registered, turn_call, second]
    exact (perform_cons w (.putJob r) _).symm
  · show Account.turn job (a.turn job w.cluster (.tick (.call register))) (w.turn (.tick (.call register))).cluster
      (.tick (.call deploy)) = _
    rw [registered, configured, supplied]

/-- The record of the job then. -/
lemma findRecord_life (w : World) {job : String} (valid : Job.isName job = true) (x : Resource) :
    (w.perform (lifeSteps job x)).cluster.findRecord job
      = .ok ((Record.new job Cluster.plainConfig (0 : UInt64).toNat).advance .deployed (0 : UInt64).toNat) := by
  have new : (Record.new job Cluster.plainConfig (0 : UInt64).toNat).Sound job :=
    .ofNew Cluster.plainConfig_fits 0
  have deployed := new.advance .deployed (Nat.zero_lt_succ 2) (by decide) 0
  exact Cluster.findRecord_of_stores valid ((Store.getJob_putJob _ deployed.fits job).trans (if_pos deployed.name))

/-- The resource of the job then. -/
lemma getResource_life (w : World) (job : String) (x : Resource) :
    (w.perform (lifeSteps job x)).cluster.store.getResource job x.name = .ok (some x) := by
  have row : (w.perform (lifeSteps job x)).cluster.store.resources.find? (resourceKey job x.name)
      = some (.of x.toJson) := by
    simp [perform, lifeSteps, Action.perform, Store.putJob, Store.putResources, Table.insertMany]
  rw [Store.getResource, Store.get, row]
  exact congrArg (Except.map some) (Row.decode_resource x)

/-- **The end of a job** is one of its account. -/
lemma run_destroy (w : World) {job : String} (valid : Job.isName job = true) (a : Account) :
    w.run [.tick (.call ⟨job, .destroy, 0, trivial⟩)] = w.perform [.removeSlot job, .purge job]
      ∧ w.account job a [.tick (.call ⟨job, .destroy, 0, trivial⟩)] = .blank := by
  set destroy : Request := ⟨job, .destroy, 0, trivial⟩
  have steps : destroy.actions w.cluster = [.removeSlot job, .purge job] := by
    rw [Request.actions]
    exact Call.actions_destroy _ _ valid
  have accepted : w.cluster.accepts destroy = true :=
    (w.cluster.accepts_iff destroy .destroy rfl).mpr (by simp [steps])
  constructor
  · rw [run_cons, run_nil, turn_call, steps]
  · show a.turn job w.cluster (.tick (.call destroy)) = .blank
    simp [Account.turn, accepted, destroy, Account.enter]

/-- A job that is destroyed and registered again, with another resource. -/
def secondLife (x y : Resource) : List Turn :=
  life "a" x ++ [.tick (.call ⟨"a", .destroy, 0, trivial⟩)] ++ life "a" y

/-- A resource, and a graph that refers to it. -/
def blob (name : String) : Resource := ⟨name, .data, .inline [], "none"⟩

def refersTo (name : String) : Graph := ⟨.null, Table.empty.insert name ()⟩

lemma names_refersTo (name : String) : (refersTo name).references.names = [name] := by
  simp [refersTo, Table.names, Table.insert, Table.insertEntry, Table.empty]

/-- The record of a job that has been given a resource. -/
def deployedRecord : Record :=
  (Record.new "a" Cluster.plainConfig (0 : UInt64).toNat).advance .deployed (0 : UInt64).toNat

lemma deployedRecord_sound : deployedRecord.Sound "a" :=
  (Record.Sound.ofNew Cluster.plainConfig_fits 0).advance .deployed (Nat.zero_lt_succ 2) (by decide) 0

/-- What there is in the second life of a job. -/
lemma run_secondLife : ∃ w, (World.start acknowledge).run (secondLife (blob "x") (blob "y")) = w
    ∧ (World.start acknowledge).account "a" .blank (secondLife (blob "x") (blob "y"))
      = ⟨some Cluster.plainConfig, ["y"]⟩
    ∧ (∀ s ∈ w.past, s.action.Brings (Resource.ClearFor "a"))
    ∧ w.cluster.findRecord "a" = .ok deployedRecord
    ∧ w.cluster.store.getResource "a" "y" = .ok (some (blob "y")) := by
  have valid : Job.isName "a" = true := by decide
  set w := World.start acknowledge with start
  obtain ⟨begun, first⟩ := run_life w "a" (blob "x") rfl valid rfl .blank
  set u := w.perform (lifeSteps "a" (blob "x")) with after_first
  obtain ⟨ended, blank⟩ := run_destroy u valid (w.account "a" .blank (life "a" (blob "x")))
  set v := u.perform [.removeSlot "a", .purge "a"] with after_destroy
  have store : v.cluster.store = (u.cluster.store.purge "a").2 := by
    simp [after_destroy, perform, Action.perform]
  have missing : v.cluster.Lacks "a" := by
    rw [Cluster.Lacks, store, Store.getJob_purge, if_pos rfl]
  have free : v.cluster.store.getResource "a" (blob "y").name = .ok none := by
    rw [store, Store.getResource, Store.get, Store.purge_resource, if_neg (by decide)]
  obtain ⟨lives, second⟩ := run_life v "a" (blob "y") missing valid free .blank
  refine ⟨v.perform (lifeSteps "a" (blob "y")), ?_, ?_, ?_, v.findRecord_life valid (blob "y"),
    v.getResource_life "a" (blob "y")⟩
  · rw [secondLife, run_append, run_append, begun, ended, lives]
  · rw [secondLife, account_append, account_append, run_append, begun, ended, blank, second]
    rfl
  · simp [after_destroy, after_first, start, World.start, perform, Cluster.steps, lifeSteps, Action.Brings,
      Resource.ClearFor, blob]

/-- What there is when its graph has been accepted. -/
lemma run_submission {w : World} {a : Account} (tells : a.Tells "a" w.cluster.store) (given : a.names = ["y"])
    (clear : ∀ s ∈ w.past, s.action.Brings (Resource.ClearFor "a"))
    (deployed : w.cluster.findRecord "a" = .ok deployedRecord)
    (there : w.cluster.store.getResource "a" "y" = .ok (some (blob "y"))) :
    let submit : Turn := .tick (.call ⟨"a", .submit (refersTo "y"), 0, trivial⟩)
    ∃ v, w.turn submit = v ∧ a.turn "a" w.cluster submit = a
      ∧ (∀ s ∈ v.past, s.action.Brings (Resource.ClearFor "a"))
      ∧ v.cluster.findRecord "a" = .ok (deployedRecord.advance .submitted (0 : UInt64).toNat)
      ∧ v.cluster.store.getResource "a" "y" = .ok (some (blob "y"))
      ∧ v.cluster.store.getGraph "a" = .ok (some (refersTo "y"))
      ∧ ∃ l, v.cluster.store.listResources "a" = .ok l := by
  intro submit
  obtain ⟨l, listed, -, -, names⟩ := tells.exists_listed (by decide)
  have complete : Operation.missingReferences (refersTo "y") l = [] := by
    obtain ⟨z, member, named⟩ := (names "y").mp (by simp [given])
    rw [Operation.missingReferences, names_refersTo]
    simpa using ⟨z, member, named⟩
  have taken : w.turn submit = w.perform
      [.putGraph "a" (refersTo "y"), .putJob (deployedRecord.advance .submitted (0 : UInt64).toNat)] := by
    rw [turn_call]
    exact congrArg (fun p => w.perform p.2) (Cluster.plan_submit_complete deployed rfl listed complete _)
  have sound : (deployedRecord.advance .submitted (0 : UInt64).toNat).Sound "a" :=
    deployedRecord_sound.advance .submitted (by decide) (by decide) 0
  refine ⟨_, taken, ?_, fun s member => ?_, ?_, there, ?_, l, ?_⟩
  · simp [submit, Account.turn, Account.enter]
  · rcases List.mem_append.mp member with before | new
    · exact clear s before
    · simp only [Cluster.steps, List.mem_cons, List.not_mem_nil, or_false] at new
      rcases new with rfl | rfl <;> trivial
  · exact Cluster.findRecord_of_stores (by decide)
      ((Store.getJob_putJob _ sound.fits "a").trans (if_pos sound.name))
  · exact (w.cluster.store.getGraph_putGraph_iff (g := refersTo "y") "a" trivial).mpr ⟨by decide, trivial⟩
  · exact listed

/-- A job whose graph has been accepted can be started. -/
lemma start_of_submitted {c : Cluster} {job : String} {r : Record} {g : Graph} {l : List Resource}
    (found : c.findRecord job = .ok r) (fresh : r.executionStarted = false) (status : r.status = .submitted)
    (graph : c.store.getGraph job = .ok (some g)) (listed : c.store.listResources job = .ok l) (now : ℕ) :
    (c.issue now job .start).1 = .answered (.ok .done) := by
  rw [c.issue_answer now job (by simp), Cluster.plan_start_submitted found fresh status graph listed now]

/-- **In its second life** a job has the resource of this life, and not that of the first: a graph that refers to
it is accepted, and the execution is given this resource. -/
theorem second_life_counts :
    let w := (World.start acknowledge).run (secondLife (blob "x") (blob "y"))
    let d := (w.turn (.tick (.call ⟨"a", .submit (refersTo "y"), 0, trivial⟩))).cluster
    (w.cluster.issue (0 : UInt64).toNat "a" (.submit (refersTo "y"))).1 = .answered (.ok .done)
      ∧ (∃ missing, (w.cluster.issue (0 : UInt64).toNat "a" (.submit (refersTo "x"))).1
          = .answered (.error (.graphRejected "a" missing)) ∧ ∀ name, name ∈ missing ↔ name = "x")
      ∧ (d.issue (0 : UInt64).toNat "a" .start).1 = .answered (.ok .done)
      ∧ ∃ s context, Call.start.actions d "a" (0 : UInt64).toNat = [.putJob s, .launch context]
        ∧ context.config = Cluster.plainConfig ∧ context.resources = [blob "y"] := by
  set turns := secondLife (blob "x") (blob "y") with lives
  set submit : Turn := .tick (.call ⟨"a", .submit (refersTo "y"), 0, trivial⟩)
  have books : (World.start acknowledge).Books "a" .blank := fun _ => .start "a"
  have tells := books.run (Orderly.start acknowledge) (show Job.isName "a" = true by decide) turns
  have submissions := @graph_accepted_iff acknowledge turns "a" deployedRecord
  have launches := @graph_accepted_iff acknowledge (turns ++ [submit]) "a"
    (deployedRecord.advance .submitted (0 : UInt64).toNat)
  obtain ⟨w, run, account, clear, deployed, there⟩ := run_secondLife
  rw [← lives] at run account
  rw [Books, run, account] at tells
  obtain ⟨v, taken, still, clear', submitted, there', graph, l, listed⟩ :=
    run_submission (tells clear) rfl clear deployed there
  have account' : (World.start acknowledge).account "a" .blank (turns ++ [submit])
      = ⟨some Cluster.plainConfig, ["y"]⟩ := by
    rw [account_append, run, account]
    exact still
  rw [run_concat, run, taken, account'] at launches
  rw [run, account] at submissions
  rw [run]
  intro _ d
  rw [show d = v.cluster from congrArg World.cluster taken]
  obtain ⟨-, accepts, -⟩ := submissions clear deployed 0
  have starts := start_of_submitted submitted rfl rfl graph listed (0 : UInt64).toNat
  obtain ⟨-, -, launched⟩ := launches clear' submitted 0
  refine ⟨(accepts rfl (refersTo "y")).1.mpr ?_, ?_, starts, ?_⟩
  · simp [names_refersTo]
  · obtain ⟨missing, answer, -, members⟩ :=
      (accepts rfl (refersTo "x")).2 ⟨"x", by simp [names_refersTo], by simp⟩
    refine ⟨missing, answer, fun name => ?_⟩
    rw [members, names_refersTo]
    simp
    rintro rfl
    decide
  · obtain ⟨s, context, actions, -, settings, ordered, contents, names, -⟩ := launched starts
    refine ⟨s, context, actions, (Option.some.inj settings).symm, ?_⟩
    -- whatever is listed has the name `y`, under which one resource is stored
    have only : ∀ z ∈ context.resources, z = blob "y" := by
      intro z member
      have named : z.name = "y" := by simpa using (names z.name).mpr ⟨z, member, rfl⟩
      have read := (contents z).mp member
      rw [named] at read
      simpa using read.symm.trans there'
    rcases resources : context.resources with _ | ⟨z, _ | ⟨z', rest⟩⟩
    · obtain ⟨z, member, -⟩ := (names "y").mp (by simp)
      simp [resources] at member
    · rw [only z (by simp [resources])]
    · rw [resources, List.pairwise_cons] at ordered
      have less := ordered.1 z' List.mem_cons_self
      rw [only z (by simp [resources]), only z' (by simp [resources])] at less
      exact absurd less (List.lt_irrefl _)

end World

end ControlPlane
