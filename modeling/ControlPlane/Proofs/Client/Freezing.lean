import Mathlib
import ControlPlane.Proofs.Client.Desk

/-!
# When a bundle stays frozen

As long as no refused submission opens the bundle under another call, a job that has been deployed keeps
its bundle frozen.  Otherwise it may not.

* `Desk.Claims` — who has frozen the bundle and counts on it: nothing may be in it but what a deployment
  has at hand, and nothing at all when the job is to be destroyed.
* `Desk.disturbs` — a refused submission opens a bundle on which somebody else counts.
* `Desk.Settled` — the invariant of all deeds that do not disturb anybody.
* `Desk.bundle_stays_frozen` — the statement about runs; `Desk.overlapping_submissions` — two
  submissions, the first of which is refused and disturbs the second.
-/

namespace ControlPlane

open Job (State Event)

/-! ## Who counts on the bundle -/

/-- An operation that has been called and has not ended. -/
def Progress.isOpen : Progress → Bool
  | queued | calling => true
  | finished _ => false

/-- **What an operation counts on**: that there is no more in the bundle than it sends, and nothing when
the job is to go. -/
def Intent.claim? : Intent → Option (List Resource)
  | deploy resources => some resources
  | destroy => some []
  | init _ | submit _ | execute | interrupt => none

/-- What a call counts on before it hands its operation over. -/
def Stage.claim? : Stage → Option (List Resource)
  | staged _ resources => some resources
  | clearing => some []
  | checked _ | deploying _ _ | waiting _ | returned _ => none

/-- What an operation counts on as long as it is open. -/
def Undertaking.claim? (u : Undertaking) : Option (List Resource) :=
  if u.progress.isOpen then u.intent.claim? else none

/-- Only an operation that counts on the bundle leads past the initialization. -/
lemma Job.State.past_of_next {s t : State} {e : Event} (h : s.next? e = some t) (past : 2 ≤ t.rank) :
    2 ≤ s.rank ∨ e = .deploy ∨ e = .destroy := by
  rw [Job.next?_eq_some_iff] at h
  cases h <;> simp_all [State.rank]

lemma Intent.claim_of_event {i : Intent} (h : i.event = .deploy ∨ i.event = .destroy) :
    ∃ rs, i.claim? = some rs := by
  cases i <;> simp_all [Intent.event, Intent.claim?]

namespace Crowd

/-- An operation counts on it that there is nothing else in the bundle. -/
def Claims (s : Crowd) (rs : List Resource) : Prop := ∃ u ∈ s.tasks, u.claim? = some rs

variable {s : Crowd} {rs : List Resource}

lemma Calls.claims {n : ℕ} {i : Intent} (calling : s.Calls n i) (claim : i.claim? = some rs) :
    s.Claims rs :=
  ⟨_, List.mem_of_getElem? calling, claim⟩

/-- An operation that gets on counts on nothing new. -/
lemma claims_advance {n : ℕ} {u : Undertaking} (found : s.tasks[n]? = some u)
    (isOpen : u.progress.isOpen = true) {p : Progress} {c : Control}
    (claims : (s.advance n u.intent p c).Claims rs) : s.Claims rs := by
  obtain ⟨v, member, claim⟩ := claims
  rcases List.mem_or_eq_of_mem_set member with before | rfl
  · exact ⟨v, before, claim⟩
  · refine ⟨u, List.mem_of_getElem? found, ?_⟩
    simp only [Undertaking.claim?] at claim ⊢
    split_ifs at claim with h
    rw [if_pos isOpen, claim]

/-- **Only an operation that is called** counts on anything new. -/
lemma Orderly.claims_move (h : s.Orderly) {m : Move} (claims : (s.move m).Claims rs) :
    s.Claims rs ∨ ∃ i, m = .enter i ∧ i.claim? = some rs := by
  have steps := h.steps m
  generalize s.move m = t at claims steps
  cases steps with
  | idle | watched watchers | delivered arrived free legal watchers => exact .inl claims
  | entered i =>
      obtain ⟨u, member, claim⟩ := claims
      rcases List.mem_append.mp member with before | new
      · exact .inl ⟨u, before, claim⟩
      · obtain rfl := List.mem_singleton.mp new
        simp only [Undertaking.claim?] at claim
        split_ifs at claim
        exact .inr ⟨i, rfl, claim⟩
  | aside found silent done => exact .inl (claims_advance found rfl claims)
  | issued found free legal => exact .inl (claims_advance found rfl claims)
  | refused calling e => exact .inl (claims_advance calling rfl claims)
  | acknowledged calling legal =>
      exact .inl (claims_advance (c := s.control) calling rfl claims)

/-- What has been acknowledged stays so. -/
lemma Orderly.acknowledged_mono (h : s.Orderly) (m : Move) :
    ∀ a ∈ s.acknowledged, a ∈ (s.move m).acknowledged := by
  have steps := h.steps m
  generalize s.move m = t at steps ⊢
  intro a member
  cases steps with
  | acknowledged calling legal => exact List.mem_append_left _ member
  | idle | watched watchers | delivered arrived free legal watchers | entered i
  | aside found silent done | issued found free legal | refused calling e => exact member

/-- **A job gets past its initialization** by an acknowledged operation that counts on the bundle. -/
lemma Orderly.past_move (h : s.Orderly) {m : Move} (past : 2 ≤ (s.move m).control.state.rank) :
    2 ≤ s.control.state.rank
      ∨ ∃ n i rs, s.Calls n i ∧ i.claim? = some rs ∧ (n, i) ∈ (s.move m).acknowledged := by
  have steps := h.steps m
  generalize s.move m = t at past steps ⊢
  cases steps with
  | idle | watched watchers | entered i | aside found silent done | issued found free legal
  | refused calling e => exact .inl past
  | @delivered n o next arrived free legal watchers =>
      rcases State.past_of_next legal past with before | deploys | destroys
      · exact .inl before
      · cases o <;> simp [Control.eventOf] at deploys
      · cases o <;> simp [Control.eventOf] at destroys
  | @acknowledged n i next calling legal =>
      have after : 2 ≤ next.rank := by simpa [advance] using past
      refine (State.past_of_next legal after).imp_right fun counts => ?_
      obtain ⟨rs, claim⟩ := Intent.claim_of_event counts
      exact ⟨n, i, rs, calling, claim, List.mem_append_right _ List.mem_cons_self⟩

/-- A job is destroyed by an acknowledged operation. -/
lemma Orderly.destroyed_move (h : s.Orderly) {m : Move}
    (destroyed : (s.move m).control.state = .destroyed) :
    s.control.state = .destroyed ∨ ∃ n, s.Calls n .destroy := by
  rcases h.changes m with same | changes
  · exact .inl (same.symm.trans destroyed)
  · rw [destroyed] at changes
    cases changes with
    | @acknowledged n i calling legal =>
        cases i <;> cases state : s.control.state <;>
          simp [state, Intent.event, State.next?] at legal
        all_goals exact .inr ⟨n, calling⟩
    | @delivered n o arrived free legal =>
        cases o <;> cases state : s.control.state <;>
          simp [state, Control.eventOf, State.next?] at legal

end Crowd

/-! ## The invariant -/

namespace Desk

/-- **Somebody counts on it** that there is nothing else in the bundle. -/
def Claims (d : Desk) (rs : List Resource) : Prop :=
  (∃ stage ∈ d.callers, stage.claim? = some rs) ∨ d.crowd.Claims rs

/-- Whether anybody counts on the bundle. -/
def isClaimed (d : Desk) : Bool :=
  d.callers.any (fun stage => stage.claim?.isSome) || d.crowd.tasks.any fun u => u.claim?.isSome

/-- **A deed opens the bundle** on which somebody counts. -/
def disturbs (d : Desk) (m : Deed) : Bool :=
  d.bundle.frozen && !(d.move m).bundle.frozen && (d.move m).isClaimed

/-- Deeds in a row that do not disturb anybody. -/
def Calm (d : Desk) : List Deed → Prop
  | [] => True
  | m :: rest => d.disturbs m = false ∧ (d.move m).Calm rest

instance decidableCalm : (d : Desk) → (deeds : List Deed) → Decidable (d.Calm deeds)
  | _, [] => .isTrue trivial
  | d, m :: rest =>
    have := decidableCalm (d.move m) rest
    inferInstanceAs (Decidable (d.disturbs m = false ∧ (d.move m).Calm rest))

lemma claims_isClaimed {d : Desk} {rs : List Resource} (claims : d.Claims rs) :
    d.isClaimed = true := by
  simp only [isClaimed, Bool.or_eq_true, List.any_eq_true]
  refine claims.imp ?_ ?_
  · rintro ⟨stage, member, claim⟩
    exact ⟨stage, member, by simp [claim]⟩
  · rintro ⟨u, member, claim⟩
    exact ⟨u, member, by simp [claim]⟩

/-- **What holds between two deeds.** -/
structure Settled (d : Desk) : Prop where
  orderly : d.crowd.Orderly
  /-- Whoever counts on the bundle is right. -/
  claimed : ∀ {rs}, d.Claims rs → d.bundle.frozen = true ∧ ∀ r ∈ d.bundle.toList, r ∈ rs
  /-- After the initialization the bundle is frozen, and what is in it has been deployed. -/
  past : 2 ≤ d.state.rank → d.bundle.frozen = true ∧ ∀ r ∈ d.bundle.toList,
    ∃ n rs, (n, .deploy rs) ∈ d.crowd.acknowledged ∧ r ∈ rs
  gone : d.state = .destroyed → d.bundle.toList = []

namespace Settled

variable {d : Desk}

/-- **A step of the crowd** by which nobody counts on anything new. -/
lemma crowd (h : d.Settled) (m : Move) (callers : List Stage)
    (claims : ∀ {rs}, Claims ⟨d.crowd.move m, d.bundle, callers⟩ rs → d.Claims rs) :
    Settled ⟨d.crowd.move m, d.bundle, callers⟩ where
  orderly := h.orderly.move m
  claimed := fun claim => h.claimed (claims claim)
  past := by
    intro past
    rcases h.orderly.past_move past with before | ⟨n, i, rs, calling, claim, acknowledged⟩
    · obtain ⟨frozen, sent⟩ := h.past before
      refine ⟨frozen, fun r member => ?_⟩
      obtain ⟨n, rs, acknowledged, deployed⟩ := sent r member
      exact ⟨n, rs, h.orderly.acknowledged_mono m _ acknowledged, deployed⟩
    · obtain ⟨frozen, right⟩ := h.claimed (.inr (calling.claims claim))
      refine ⟨frozen, fun r member => ?_⟩
      have counted := right r member
      cases i <;> simp only [Intent.claim?, Option.some.injEq, reduceCtorEq] at claim
      · obtain rfl := claim
        exact ⟨n, _, acknowledged, counted⟩
      · simp [← claim] at counted
  gone := by
    intro destroyed
    rcases h.orderly.destroyed_move destroyed with before | ⟨n, calling⟩
    · exact h.gone before
    · obtain ⟨-, right⟩ := h.claimed (.inr (calling.claims rfl))
      exact List.eq_nil_iff_forall_not_mem.mpr fun r member => List.not_mem_nil (right r member)

/-- A deed that leaves operations and bundle alone. -/
lemma aside (h : d.Settled) (callers : List Stage)
    (claims : ∀ {rs}, Claims ⟨d.crowd, d.bundle, callers⟩ rs → d.Claims rs) :
    Settled ⟨d.crowd, d.bundle, callers⟩ :=
  ⟨h.orderly, fun claim => h.claimed (claims claim), h.past, h.gone⟩

/-- A deed that leaves the bundle frozen, with no more in it than before. -/
lemma frozen (h : d.Settled) {b : Bundle} {callers : List Stage} (frozen : b.frozen = true)
    (less : ∀ r ∈ b.toList, r ∈ d.bundle.toList)
    (claims : ∀ {rs}, Claims ⟨d.crowd, b, callers⟩ rs → d.Claims rs ∨ ∀ r ∈ b.toList, r ∈ rs) :
    Settled ⟨d.crowd, b, callers⟩ where
  orderly := h.orderly
  claimed := by
    intro rs claim
    refine ⟨frozen, ?_⟩
    rcases claims claim with before | right
    · exact fun r member => (h.claimed before).2 r (less r member)
    · exact right
  past := fun past => ⟨frozen, fun r member => (h.past past).2 r (less r member)⟩
  gone := by
    intro destroyed
    refine List.eq_nil_iff_forall_not_mem.mpr fun r member => ?_
    have := less r member
    rw [h.gone destroyed] at this
    exact List.not_mem_nil this

/-- A deed at a job that has not been deployed, while nobody counts on the bundle. -/
lemma early (h : d.Settled) {b : Bundle} {callers : List Stage} (early : d.state.rank < 2)
    (nobody : ∀ {rs}, ¬Claims ⟨d.crowd, b, callers⟩ rs) : Settled ⟨d.crowd, b, callers⟩ where
  orderly := h.orderly
  claimed := fun claim => absurd claim nobody
  past := fun past => absurd past (not_le.mpr early)
  gone := by
    intro destroyed
    rw [show d.state = .destroyed from destroyed] at early
    simp [State.rank] at early

/-- Nobody counts on a bundle that is open, and nothing has been deployed from it. -/
lemma of_open (h : d.Settled) (isOpen : d.bundle.frozen = false) :
    d.state.rank < 2 ∧ ∀ {rs}, ¬d.Claims rs := by
  constructor
  · by_contra past
    simp [(h.past (not_lt.mp past)).1] at isOpen
  · intro rs claim
    simp [(h.claimed claim).1] at isOpen

end Settled

/-! ### Who counts on the bundle after a deed -/

section Claims

variable {s t : Crowd} {b c : Bundle} {callers : List Stage} {stage : Stage} {rs : List Resource}

lemma claims_append (claims : Claims ⟨s, b, callers ++ [stage]⟩ rs) :
    Claims ⟨s, c, callers⟩ rs ∨ stage.claim? = some rs := by
  rcases claims with ⟨other, member, claim⟩ | operation
  · rcases List.mem_append.mp member with before | new
    · exact .inl (.inl ⟨other, before, claim⟩)
    · obtain rfl := List.mem_singleton.mp new
      exact .inr claim
  · exact .inl (.inr operation)

lemma claims_set {k : ℕ} (claims : Claims ⟨s, b, callers.set k stage⟩ rs) :
    Claims ⟨s, c, callers⟩ rs ∨ stage.claim? = some rs := by
  rcases claims with ⟨other, member, claim⟩ | operation
  · rcases List.mem_or_eq_of_mem_set member with before | rfl
    · exact .inl (.inl ⟨other, before, claim⟩)
    · exact .inr claim
  · exact .inl (.inr operation)

/-- An operation counts on what its call has counted on. -/
lemma claims_enter (orderly : s.Orderly) {i : Intent}
    (handed : ∀ {rs}, i.claim? = some rs → Claims ⟨s, b, callers⟩ rs)
    (claims : Claims ⟨s.move (.enter i), b, callers⟩ rs) : Claims ⟨s, b, callers⟩ rs := by
  rcases claims with caller | operation
  · exact .inl caller
  · rcases orderly.claims_move operation with before | ⟨j, same, claim⟩
    · exact .inr before
    · obtain rfl : i = j := by simpa using same
      exact handed claim

end Claims

/-! ### One deed -/

namespace Settled

variable {d : Desk}

/-- A call that goes on to a stage in which it counts on nothing. -/
lemma aside_set (h : d.Settled) (k : ℕ) {stage : Stage} (silent : stage.claim? = none) :
    Settled ⟨d.crowd, d.bundle, d.callers.set k stage⟩ := by
  refine h.aside _ fun claims => ?_
  rcases claims_set (c := d.bundle) claims with before | new
  · exact before
  · simp [silent] at new

/-- A call hands an operation over that counts on what the call has counted on. -/
lemma undertake (h : d.Settled) (k : ℕ) {i : Intent} {stage : Stage} (silent : stage.claim? = none)
    (handed : ∀ {rs}, i.claim? = some rs → d.Claims rs) :
    Settled ⟨d.crowd.move (.enter i), d.bundle, d.callers.set k stage⟩ := by
  refine h.crowd _ _ fun claims => ?_
  rcases claims_set (c := d.bundle) claims with before | new
  · exact claims_enter h.orderly handed before
  · simp [silent] at new

lemma submit (h : d.Settled) (g : Graph) : (d.move (.submit g)).Settled := by
  simp only [Desk.move, Desk.undertake]
  split_ifs
  · refine h.crowd _ _ fun claims => ?_
    rcases claims_append (c := d.bundle) claims with before | new
    · exact claims_enter h.orderly (by simp [Intent.claim?]) before
    · simp [Stage.claim?] at new
  · split
    all_goals
      refine h.aside _ fun claims => ?_
      rcases claims_append (c := d.bundle) claims with before | new
      · exact before
      · simp [Stage.claim?] at new

lemma freeze (h : d.Settled) (k : ℕ) : (d.move (.freeze k)).Settled := by
  simp only [Desk.move]
  split
  next g found =>
    refine h.frozen rfl (fun r member => member) fun claims => ?_
    rcases claims_set (c := d.bundle) claims with before | new
    · exact .inl before
    · obtain rfl : d.bundle.toList = _ := by simpa [Stage.claim?] using new
      exact .inr fun r member => member
  next => exact h

lemma destroy (h : d.Settled) : (d.move .destroy).Settled := by
  have empty : (d.bundle.freeze.clear).toList = [] := rfl
  refine h.frozen rfl (by simp [empty]) fun claims => ?_
  rcases claims_append (c := d.bundle) claims with before | new
  · exact .inl before
  · exact .inr (by simp [empty])

lemma add (h : d.Settled) (a : Addition) : (d.move (.add a)).Settled := by
  cases frozen : d.bundle.frozen with
  | true =>
      have same : (d.handle.addTo a.addTo).2.bundle = d.bundle := by
        simp [Handle.addTo, handle, a.addTo_frozen frozen]
      simp only [Desk.move, same]
      exact h
  | false =>
      obtain ⟨early, nobody⟩ := h.of_open frozen
      exact h.early early nobody

/-- A refused submission opens the bundle, but not if anybody counts on it. -/
lemma reopen (h : d.Settled) {k : ℕ} {result : Except JobError State}
    (calm : d.bundle.frozen = true → d.handle.reopen.bundle.frozen = false →
      ∀ {rs}, ¬Claims ⟨d.crowd, d.handle.reopen.bundle, d.callers.set k (.returned result)⟩ rs) :
    Settled ⟨d.crowd, d.handle.reopen.bundle, d.callers.set k (.returned result)⟩ := by
  unfold Handle.reopen at *
  split_ifs at calm ⊢ with initialized
  · have early : d.state.rank < 2 := by
      rw [show d.state = .initialized from initialized]
      decide
    cases frozen : d.bundle.frozen with
    | true => exact h.early early (calm frozen rfl)
    | false =>
        refine h.early early fun claims => ?_
        rcases claims_set (c := d.bundle) claims with before | new
        · exact (h.of_open frozen).2 before
        · simp [Stage.claim?] at new
  · exact h.aside_set k rfl

lemma resume (h : d.Settled) {k : ℕ}
    (quiet : ∀ {rs}, d.bundle.frozen = true → (d.move (.resume k)).bundle.frozen = false →
      ¬(d.move (.resume k)).Claims rs) : (d.move (.resume k)).Settled := by
  cases found : d.callers[k]? with
  | none =>
      simp only [Desk.move, found]
      exact h
  | some stage =>
      cases stage with
      | deploying g n =>
          cases ended : d.result? n with
          | none =>
              simp only [Desk.move, found, ended]
              exact h
          | some result =>
              cases result with
              | error e =>
                  simp only [Desk.move, found, ended] at quiet ⊢
                  exact h.reopen fun frozen opened => quiet frozen opened
              | ok state =>
                  simp only [Desk.move, found, ended]
                  exact h.undertake k rfl (by simp [Intent.claim?])
      | waiting n =>
          cases ended : d.result? n with
          | none =>
              simp only [Desk.move, found, ended]
              exact h
          | some result =>
              simp only [Desk.move, found, ended]
              exact h.aside_set k rfl
      | checked g | staged g rs | clearing | returned result =>
          simp only [Desk.move, found]
          exact h

/-- **Every deed that disturbs nobody** keeps the invariant. -/
theorem move (h : d.Settled) {m : Deed} (calm : d.disturbs m = false) : (d.move m).Settled := by
  cases m with
  | submit g => exact h.submit g
  | freeze k => exact h.freeze k
  | deploy k =>
      simp only [Desk.move]
      split
      next g rs found =>
        refine h.undertake k rfl fun claim => ?_
        obtain rfl : rs = _ := by simpa [Intent.claim?] using claim
        exact .inl ⟨_, List.mem_of_getElem? found, rfl⟩
      next => exact h
  | resume k =>
      have quiet : ∀ {rs}, d.bundle.frozen = true → (d.move (.resume k)).bundle.frozen = false →
          ¬(d.move (.resume k)).Claims rs := by
        intro rs frozen opened claims
        simp [disturbs, frozen, opened, claims_isClaimed claims] at calm
      exact h.resume quiet
  | destroy => exact h.destroy
  | release k =>
      simp only [Desk.move]
      split
      next found =>
        refine h.undertake k rfl fun claim => ?_
        obtain rfl : [] = _ := by simpa [Intent.claim?] using claim
        exact .inl ⟨_, List.mem_of_getElem? found, rfl⟩
      next => exact h
  | add a => exact h.add a
  | control m =>
      simp only [Desk.move]
      split_ifs with plain
      · refine h.crowd m _ fun claims => ?_
        rcases claims with caller | operation
        · exact .inl caller
        · rcases h.orderly.claims_move operation with before | ⟨i, rfl, claim⟩
          · exact .inr before
          · cases i <;> simp [Move.isPlain, Intent.isPlain, Intent.claim?] at plain claim
      · exact h

theorem run (h : d.Settled) {deeds : List Deed} (calm : d.Calm deeds) : (d.run deeds).Settled := by
  induction deeds generalizing d with
  | nil => exact h
  | cons m deeds ih => exact ih (h.move calm.1) calm.2

lemma new (job : String) : (Desk.new job).Settled where
  orderly := .new job
  claimed := by simp [Desk.new, Claims, Crowd.Claims, Crowd.new]
  past := by simp [Desk.new, Desk.state, Crowd.new, Control.new, State.rank]
  gone := by simp [Desk.new, Desk.state, Crowd.new, Control.new]

end Settled

/-! ## Runs -/

variable {d : Desk}

/-- The operations of a handle take one step, or none. -/
lemma crowd_move (d : Desk) (m : Deed) :
    (d.move m).crowd = d.crowd ∨ ∃ step, (d.move m).crowd = d.crowd.move step := by
  cases m with
  | freeze k | deploy k | release k =>
      simp only [Desk.move, undertake]
      split
      · simp
      · exact .inl rfl
  | submit g =>
      simp only [Desk.move, undertake]
      split_ifs
      · exact .inr ⟨.enter (.submit g), rfl⟩
      · split <;> exact .inl rfl
  | resume k =>
      simp only [Desk.move, undertake]
      split <;> try split
      all_goals simp
  | destroy | add a => exact .inl rfl
  | control step =>
      simp only [Desk.move]
      split_ifs
      · exact .inr ⟨step, rfl⟩
      · exact .inl rfl

/-- Only a job that has not been deployed has its bundle opened. -/
lemma frozen_move (frozen : d.bundle.frozen = true) (past : d.state ≠ .initialized) (m : Deed) :
    (d.move m).bundle.frozen = true := by
  have reopen : d.handle.reopen = d.handle := if_neg past
  have add : ∀ a : Addition, (d.handle.addTo a.addTo).2.bundle = d.bundle := by
    intro a
    simp [Handle.addTo, handle, a.addTo_frozen frozen]
  cases m <;> simp only [Desk.move, undertake, reopen, add]
  all_goals (repeat' split) <;> simp_all [handle, Bundle.freeze, Bundle.clear]

lemma job_run (h : d.crowd.Orderly) (deeds : List Deed) :
    (d.run deeds).crowd.control.job = d.crowd.control.job := by
  induction deeds generalizing d with
  | nil => rfl
  | cons m deeds ih =>
      rcases d.crowd_move m with same | ⟨step, same⟩
      · have after : (d.move m).crowd.Orderly := same ▸ h
        exact (ih after).trans (by rw [same])
      · have after : (d.move m).crowd.Orderly := same ▸ h.move step
        exact (ih after).trans (by rw [same, h.job_move step])

/-- **Once a job has been deployed** nobody is disturbed any more, and the state goes forward. -/
lemma Settled.past_run (h : d.Settled) (past : 2 ≤ d.state.rank) (deeds : List Deed) :
    (d.run deeds).Settled ∧ d.state.rank ≤ (d.run deeds).state.rank := by
  induction deeds generalizing d with
  | nil => exact ⟨h, le_rfl⟩
  | cons m deeds ih =>
      have deployed : d.state ≠ .initialized := by
        intro initialized
        simp [initialized, State.rank] at past
      have calm : d.disturbs m = false := by
        simp [disturbs, frozen_move (h.past past).1 deployed m]
      have forward : d.state.rank ≤ (d.move m).state.rank := by
        rcases d.crowd_move m with same | ⟨step, same⟩
        · simp [state, same]
        · rw [state, state, same]
          exact h.orderly.rank_mono step
      obtain ⟨settled, further⟩ := ih (h.move calm) (past.trans forward)
      exact ⟨settled, forward.trans further⟩

/-- **The bundle stays frozen once a job has been deployed**, if no submission that is refused opens it
under another call.  Take any deeds of which none does, with any answers of the cluster, after which the
job is past its initialization.  Then whatever deeds follow, the bundle is frozen and
whoever adds to it is told so; all that is in it has been sent by an acknowledged deployment;
and when the job has been destroyed, nothing is in it. -/
theorem bundle_stays_frozen (job : String) (deeds : List Deed) (calm : (Desk.new job).Calm deeds)
    (started : ((Desk.new job).run deeds).state ≠ .unstarted)
    (past : ((Desk.new job).run deeds).state ≠ .initialized) (further : List Deed) :
    let d := ((Desk.new job).run deeds).run further
    d.bundle.frozen = true ∧
    (∀ a : Addition, (d.handle.addTo a.addTo).1 = .error (.bundleFrozen job)) ∧
    (∀ r ∈ d.bundle.toList, ∃ n rs, (n, .deploy rs) ∈ d.crowd.acknowledged ∧ r ∈ rs) ∧
    (d.state = .destroyed → d.bundle.toList = []) := by
  intro d
  have settled := (Settled.new job).run calm
  have rank : 2 ≤ ((Desk.new job).run deeds).state.rank := by
    cases state : ((Desk.new job).run deeds).state <;> simp_all [State.rank]
  obtain ⟨after, forward⟩ := settled.past_run rank further
  obtain ⟨frozen, sent⟩ := after.past (rank.trans forward)
  have drives : d.crowd.control.job = job := by
    show (((Desk.new job).run deeds).run further).crowd.control.job = job
    rw [job_run settled.orderly, job_run (.new job)]
    rfl
  refine ⟨frozen, fun a => ?_, sent, after.gone⟩
  have refused := a.addTo_frozen (show d.handle.bundle.frozen = true from frozen)
  simp only [Handle.addTo, refused, JobError.ofBundle]
  rw [Handle.job, handle, drives]

/-- The deeds of one submission whose deployment is operation number `n`. -/
def submission (k n : ℕ) (graph : Graph) (answer : Except ClusterError Unit) : List Deed :=
  [.submit graph, .freeze k, .deploy k, .control (.acquire n), .control (.answer n answer), .resume k]

/-- The registration of a job. -/
def initialization : List Deed :=
  [.control (.enter (.init ⟨1, 1, .empty⟩)), .control (.acquire 0), .control (.answer 0 (.ok ()))]

/-- A job whose first submission is refused, and that then gets a resource and is submitted again.  After
that a submission, a destruction and another resource come at once. -/
theorem second_submission_deploys :
    let graph := Graph.new .null
    let late : Addition := .codeBytes "late" [1]
    let deeds := initialization ++ submission 0 1 graph (.error (.transport ""))
      ++ [.add (.codeBytes "lib" [0])] ++ submission 1 2 graph (.ok ())
    let d := ((Desk.new "a").run deeds).run [.submit graph, .destroy, .add late]
    (Desk.new "a").Calm deeds ∧ d.state = .deployed ∧ d.bundle.frozen = true
      ∧ (d.handle.addTo late.addTo).1 = .error (.bundleFrozen "a") := by
  intro graph late deeds d
  have calm : (Desk.new "a").Calm deeds := by decide +kernel
  have deployed : d.state = .deployed := by decide +kernel
  have frozen := bundle_stays_frozen "a" deeds calm (by decide +kernel) (by decide +kernel)
    [.submit graph, .destroy, .add late]
  exact ⟨calm, deployed, frozen.1, frozen.2.1 late⟩

/-- **Two submissions that overlap.**  Both have frozen the bundle when the deployment of the first is
refused, and so it opens the bundle under the second, whose deployment is then acknowledged.  The job has
been deployed, and its bundle takes a resource that has not. -/
theorem overlapping_submissions :
    let graph := Graph.new .null
    let deeds := initialization ++ [.submit graph, .submit graph, .freeze 0, .freeze 1, .deploy 0,
      .deploy 1, .control (.acquire 1), .control (.answer 1 (.error (.transport ""))), .resume 0,
      .control (.acquire 2), .control (.answer 2 (.ok ())), .add (.codeBytes "late" [1])]
    let d := (Desk.new "a").run deeds
    d.state = .deployed ∧ d.bundle.frozen = false ∧ d.bundle.toList.map Resource.name = ["late"]
      ∧ ∀ n rs, (n, .deploy rs) ∈ d.crowd.acknowledged → rs = [] := by
  intro graph deeds d
  have silent : d.crowd.acknowledged.all (fun a => (a.2.claim?.getD []).isEmpty) = true := by
    decide +kernel
  refine ⟨by decide +kernel, by decide +kernel, by decide +kernel, fun n rs member => ?_⟩
  simpa [Intent.claim?] using List.all_eq_true.mp silent _ member

-- A submission that overlaps a destruction.  The bundle has been emptied when the deployment is refused,
-- and so it is opened once more before the destruction is acknowledged.  The job has been destroyed, and its
-- bundle still takes resources.
example :
    let deeds := initialization ++ [.submit (Graph.new .null), .freeze 0, .deploy 0,
      .control (.acquire 1), .control (.answer 1 (.error (.transport ""))), .destroy, .resume 0,
      .add (.codeBytes "late" [1]), .release 1, .control (.acquire 2), .control (.answer 2 (.ok ()))]
    let d := (Desk.new "a").run deeds
    d.state = .destroyed ∧ d.bundle.frozen = false ∧ d.bundle.toList.map Resource.name = ["late"] := by
  decide +kernel

end Desk

end ControlPlane
