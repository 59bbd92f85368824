import Mathlib
import ControlPlane.Proofs.Cluster.Attended

/-!
# Outcomes that are posted

An outcome is put into the run slot of a job, and at the same time it is posted for those who wait, under the
number of the execution.  As no two executions have one number, the two tell the same for ever.

* `Cluster.Posted` — the invariant, with what it needs of names and numbers.
* `Posted.perform`, `Posted.react`, `World.posted_run` — steps, ticks and runs keep it.
-/

namespace ControlPlane

namespace Cluster

/-! ## Outcomes that are posted -/

/-- **The outcome in a slot is posted** under the number of the execution. -/
structure Posted (c : Cluster) : Prop where
  numbered : c.Numbered
  valid : ∀ {job slot}, c.slots.find? job = some slot → Job.isName job = true
  apart : ∀ {job key slot other}, c.slots.find? job = some slot → c.slots.find? key = some other →
    slot.execution = other.execution → job = key
  posted : ∀ {job slot}, c.slots.find? job = some slot →
    c.published.lookup slot.execution = slot.outcome
  latest : ∀ {job e}, c.latest.find? job = some e → e < c.nextExecution
  newest : ∀ {job slot}, c.slots.find? job = some slot → c.latest.find? job = some slot.execution

namespace Posted

variable {c d : Cluster}

/-- No slot is new or has another outcome. -/
lemma of_less (h : c.Posted) (numbered : d.Numbered) (next : d.nextExecution = c.nextExecution)
    (slots : ∀ {job slot}, d.slots.find? job = some slot → ∃ old, c.slots.find? job = some old
      ∧ slot.execution = old.execution ∧ slot.outcome = old.outcome)
    (published : d.published = c.published) (latest : d.latest = c.latest) : d.Posted where
  numbered := numbered
  latest := by
    rw [latest, next]
    exact h.latest
  valid := by
    intro job slot found
    obtain ⟨old, before, -⟩ := slots found
    exact h.valid before
  apart := by
    intro job key slot other found found' same
    obtain ⟨old, before, eq, -⟩ := slots found
    obtain ⟨old', before', eq', -⟩ := slots found'
    exact h.apart before before' (by rw [← eq, ← eq', same])
  posted := by
    intro job slot found
    obtain ⟨old, before, execution, outcome⟩ := slots found
    rw [published, execution, outcome]
    exact h.posted before
  newest := by
    intro job slot found
    obtain ⟨old, before, execution, -⟩ := slots found
    rw [latest, execution]
    exact h.newest before

lemma of_slots (h : c.Posted) (numbered : d.Numbered) (next : d.nextExecution = c.nextExecution)
    (slots : d.slots = c.slots) (published : d.published = c.published) (latest : d.latest = c.latest) :
    d.Posted :=
  h.of_less numbered next (fun {_ slot} found => ⟨slot, slots ▸ found, rfl, rfl⟩) published latest

lemma modifySlot (h : c.Posted) (job : String) {f : RunSlot → RunSlot}
    (execution : ∀ slot, (f slot).execution = slot.execution)
    (outcome : ∀ slot, (f slot).outcome = slot.outcome) : (c.modifySlot job f).Posted := by
  refine h.of_less (h.numbered.modifySlot job execution) (modifySlot_nextExecution ..) ?_
    (modifySlot_published ..) (by rw [c.modifySlot_eq])
  intro key slot found
  rw [modifySlot_find?] at found
  split_ifs at found
  · obtain ⟨old, before, rfl⟩ := Option.map_eq_some_iff.mp found
    exact ⟨old, before, execution old, outcome old⟩
  · exact ⟨slot, found, rfl, rfl⟩

lemma removeSlot (h : c.Posted) (job : String) : (c.removeSlot job).Posted := by
  refine h.of_less (h.numbered.removeSlot job) (removeSlot_nextExecution ..) ?_
    (removeSlot_published ..) (by rw [c.removeSlot_eq])
  intro key slot found
  rw [removeSlot_find?] at found
  split_ifs at found
  exact ⟨slot, found, rfl, rfl⟩

/-- A new execution has a number of its own, under which nothing is posted. -/
lemma launch (h : c.Posted) {context : ExecutionContext} (valid : Job.isName context.job = true) :
    (c.launch context).Posted where
  numbered := h.numbered.launch context
  valid := by
    intro job slot found
    rw [launch_find?] at found
    split_ifs at found with here
    · exact here ▸ valid
    · exact h.valid found
  apart := by
    intro job key slot other found found' same
    rw [launch_find?] at found found'
    split_ifs at found found' with here here'
    · exact here.symm.trans here'
    · obtain rfl := Option.some.inj found
      exact absurd same.symm (h.numbered.slots found').ne
    · obtain rfl := Option.some.inj found'
      exact absurd same (h.numbered.slots found).ne
    · exact h.apart found found' same
  posted := by
    intro job slot found
    rw [launch_find?] at found
    split_ifs at found
    · obtain rfl := Option.some.inj found
      exact h.numbered.lookup_next
    · exact h.posted found
  latest := by
    intro job e found
    simp only [Cluster.launch, Table.find?_insert] at found
    split_ifs at found
    · obtain rfl := Option.some.inj found
      exact Nat.lt_succ_self _
    · exact (h.latest found).trans (Nat.lt_succ_self _)
  newest := by
    intro job slot found
    rw [launch_find?] at found
    simp only [Cluster.launch, Table.find?_insert]
    split_ifs at found ⊢
    · obtain rfl := Option.some.inj found
      rfl
    · exact h.newest found

/-- An outcome is posted when it is put into the slot. -/
lemma setOutcome (h : c.Posted) (job : String) (outcome : Job.Outcome) :
    (c.setOutcome job outcome).Posted := by
  have find_eq : ∀ key, (c.setOutcome job outcome).slots.find? key = _ := fun key =>
    Action.perform_find? c (.setOutcome job outcome) key
  have published : (c.setOutcome job outcome).published = _ :=
    Action.perform_published c (.setOutcome job outcome)
  have slots : ∀ {key slot}, (c.setOutcome job outcome).slots.find? key = some slot →
      ∃ old, c.slots.find? key = some old ∧ slot.execution = old.execution
        ∧ slot.outcome = if job = key then some outcome else old.outcome := by
    intro key slot found
    rw [find_eq] at found
    simp only at found
    split_ifs at found ⊢
    · obtain ⟨old, before, rfl⟩ := Option.map_eq_some_iff.mp found
      exact ⟨old, before, rfl, rfl⟩
    · exact ⟨slot, found, rfl, rfl⟩
  constructor
  case numbered => exact h.numbered.setOutcome job outcome
  case latest =>
    rw [setOutcome_eq_modifySlot, c.modifySlot_eq]
    exact h.latest
  case newest =>
    intro key slot found
    obtain ⟨old, before, execution, -⟩ := slots found
    rw [setOutcome_eq_modifySlot, c.modifySlot_eq, execution]
    exact h.newest before
  case valid =>
    intro key slot found
    obtain ⟨old, before, -⟩ := slots found
    exact h.valid before
  case apart =>
    intro key key' slot slot' found found' same
    obtain ⟨old, before, eq, -⟩ := slots found
    obtain ⟨old', before', eq', -⟩ := slots found'
    exact h.apart before before' (by rw [← eq, ← eq', same])
  case posted =>
    intro key slot found
    obtain ⟨old, before, execution, shown⟩ := slots found
    rw [published, execution, shown]
    simp only
    cases own : c.slots.find? job with
    | none =>
        have other : job ≠ key := by
          rintro rfl
          simp [own] at before
        rw [if_neg other]
        exact h.posted before
    | some mine =>
        rw [List.lookup_cons]
        by_cases here : job = key
        · subst here
          obtain rfl := Option.some.inj (own.symm.trans before)
          simp
        · have other : old.execution ≠ mine.execution := fun same => here (h.apart own before same.symm)
          rw [beq_false_of_ne other, if_neg here]
          exact h.posted before

/-- **Every step** keeps outcomes posted. -/
theorem perform (h : c.Posted) {a : Action}
    (valid : ∀ context, a = .launch context → Job.isName context.job = true) : (a.perform c).2.Posted := by
  cases a
  case launch context => exact h.launch (valid context rfl)
  case requestInterrupt job => exact h.modifySlot job (fun _ => rfl) fun _ => rfl
  case removeSlot job => exact h.removeSlot job
  case setOutcome job outcome => exact h.setOutcome job outcome
  all_goals exact h.of_slots (h.numbered.perform _) rfl rfl rfl rfl

lemma after (h : c.Posted) {actions : List Action}
    (valid : ∀ context, .launch context ∈ actions → Job.isName context.job = true) :
    (c.after actions).Posted := by
  induction actions generalizing c with
  | nil => exact h
  | cons a rest ih =>
      refine ih (h.perform fun context same => valid context (same ▸ List.mem_cons_self)) ?_
      exact fun context member => valid context (List.mem_cons_of_mem a member)

lemma resolved (h : c.Posted) (execution : ℕ) : (c.resolved execution).Posted := by
  have numbered := h.numbered.resolved execution
  unfold Cluster.resolved at numbered ⊢
  cases found : c.findTask execution with
  | none => exact h
  | some t =>
      rw [found] at numbered
      simp only at numbered ⊢
      cases phase : t.phase with
      | resolved result => simpa [resolveTask, phase] using h
      | working work =>
          obtain ⟨a, next, eq, -⟩ := c.resolveTask_eq phase
          rw [eq, putCounters_eq_modifySlot] at numbered ⊢
          refine Posted.of_slots (h.modifySlot t.job (fun slot => ?_) fun slot => ?_) numbered rfl rfl rfl rfl
          all_goals split_ifs <;> rfl

/-- A publication launches nothing. -/
lemma publication_launch {execution now : ℕ} (context : ExecutionContext) :
    .launch context ∉ c.publication execution now := by
  unfold publication
  rcases c.findTask execution with _ | t
  · simp
  simp only
  cases t.phase with
  | working work => simp
  | resolved result =>
      simp only [Operation.plan_publish]
      rcases c.slots.find? t.job with _ | slot
      · simp
      · simp only [Operation.plan_persist]
        rcases c.store.getJob t.job with e | _ | r <;> simp

/-- Somebody who writes to the counters of an execution leaves its outcome. -/
lemma writeSink (h : c.Posted) (execution : ℕ) (w : SinkWrite) : (c.writeSink execution w).Posted := by
  refine h.of_less (h.numbered.writeSink execution w) rfl ?_ rfl rfl
  intro job slot found
  rw [writeSink_find?] at found
  obtain ⟨old, before, rfl⟩ := Option.map_eq_some_iff.mp found
  refine ⟨old, before, ?_⟩
  split_ifs <;> exact ⟨rfl, rfl⟩

lemma restart (c : Cluster) : c.restart.Posted where
  numbered := .restart
  valid := by simp [Cluster.restart]
  apart := by simp [Cluster.restart]
  posted := by simp [Cluster.restart]
  latest := by simp [Cluster.restart]
  newest := by simp [Cluster.restart]

end Posted

/-- Only a job with a proper name is launched. -/
lemma isName_of_launch {c : Cluster} {q : Request} {context : ExecutionContext}
    (member : .launch context ∈ q.actions c) : Job.isName context.job = true := by
  have effect := q.effect c
  obtain ⟨job, call, now, fits⟩ := q
  by_contra invalid
  have started : call = .start ∧ context.job = job := by
    generalize Request.actions ⟨job, call, now, fits⟩ c = actions at member effect
    cases effect <;> simp at member
    exact ⟨rfl, member ▸ rfl⟩
  obtain ⟨rfl, rfl⟩ := started
  rw [Request.actions, start_of_invalid invalid] at member
  simp at member

/-- **Every tick** keeps outcomes posted. -/
theorem Posted.react {c : Cluster} (h : c.Posted) (t : Tick) : (c.react t).Posted := by
  have numbered := h.numbered.react t
  cases t with
  | call q =>
      rw [react_call]
      exact h.after fun context => isName_of_launch
  | resolve execution => exact h.resolved execution
  | publish execution now =>
      rw [react_publish_eq, retire_eq] at numbered ⊢
      have published : (c.after (c.publication execution now.toNat)).Posted :=
        h.after fun context member => absurd member (publication_launch context)
      exact published.of_slots numbered rfl rfl rfl rfl
  | write execution w => exact h.writeSink execution w
  | openGate job =>
      simp only [Cluster.react] at numbered ⊢
      rw [openGate_eq] at numbered ⊢
      exact h.of_slots numbered rfl rfl rfl rfl
  | exchange executor => exact h.of_slots numbered rfl rfl rfl rfl
  | restart => exact .restart c

end Cluster

namespace World

variable {w : World}

lemma posted_turn (h : w.cluster.Posted) (t : Turn) : (w.turn t).cluster.Posted := by
  cases t with
  | tick t => exact h.react t
  | cut t n => exact .restart _

theorem posted_run (executor : Executor) (turns : List Turn) :
    ((World.start executor).run turns).cluster.Posted := by
  suffices runs : ∀ w : World, w.cluster.Posted → (w.run turns).cluster.Posted from
    runs _ (.restart (Cluster.ofStore .empty executor))
  induction turns with
  | nil => exact fun w h => h
  | cons t rest ih => exact fun w h => ih _ (posted_turn h t)

end World

end ControlPlane
