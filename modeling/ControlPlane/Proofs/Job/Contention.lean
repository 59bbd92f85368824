import Mathlib
import ControlPlane.Job.Machine
import ControlPlane.Proofs.Client.Exclusion

/-!
# Callers that contend for the state of a job

Any number of callers apply events to one machine, each its own, one call after the other.  They take turns in
any order; a turn is one access to the cell, or the return of a call that has seen that its event is not legal.

* `Machine.told` — what callers are told who come one after the other.
* `Contest`, `Contest.turn` — callers at once, built on `Attempt.step`; `Contest.Turns` are the cases of a turn.
* `Contest.Sound` — what is known of every call, under way or returned, and of the states so far.
* `Contest.Linear` — a log of the calls in the order in which they took effect.
* `Contest.Paced` — nobody needs more than eight turns for a call.
* `Contest.linearizable` — the statement about runs.
-/

namespace ControlPlane.Job

/-! ## Calls in a row -/

namespace Machine

/-- What callers are told who come one after the other. -/
def told (m : Machine) : List Event → List (Except Illegal State)
  | [] => []
  | e :: rest => (m.transition e).1 :: (m.transition e).2.told rest

lemma advance_concat (m : Machine) (es : List Event) (e : Event) :
    m.advance (es ++ [e]) = ((m.advance es).transition e).2 := by
  simp [advance]

lemma told_concat (m : Machine) (es : List Event) (e : Event) :
    m.told (es ++ [e]) = m.told es ++ [((m.advance es).transition e).1] := by
  induction es generalizing m with
  | nil => rfl
  | cons f es ih => simp [told, ih, advance]

lemma transition_of_legal {m : Machine} {e : Event} {next : State} (legal : m.state.next? e = some next) :
    m.transition e = (.ok next, { m with state := next }) := by
  simp [transition, legal]

lemma transition_of_illegal {m : Machine} {e : Event} (illegal : m.state.next? e = none) :
    m.transition e = (.error ⟨m.state, e⟩, m) := by
  simp [transition, illegal]

end Machine

/-! ## Callers at once -/

/-- **A call that is under way**: what it has seen of the cell, the turns of its first look and of its latest,
and how many exchanges it has lost. -/
structure Bid where
  event : Event
  seen : State
  began : ℕ
  looked : ℕ
  lost : ℕ

/-- A caller: the call that is under way, and the events of those to come. -/
structure Party where
  bid : Option Bid
  events : List Event

/-- **A call that has returned**, with the turns of its first access to the cell and of its last. -/
structure Verdict where
  caller : ℕ
  event : Event
  result : Except Illegal State
  began : ℕ
  looked : ℕ
  lost : ℕ

/-- The verdict on a call that has seen that its event is not legal. -/
def Bid.refusal (b : Bid) (k : ℕ) : Verdict :=
  ⟨k, b.event, .error ⟨b.seen, b.event⟩, b.began, b.looked, b.lost⟩

namespace Verdict

/-- Whether the event has been applied. -/
def succeeds (v : Verdict) : Bool := v.result.isOk

/-- **One call comes before another** when its last access comes before the first of the other.  All accesses
of a call are made between its invocation and its return. -/
def Precedes (v w : Verdict) : Prop := v.looked < w.began

end Verdict

/-- Whether an event tells how the execution has ended. -/
def Event.settles : Event → Bool
  | .complete | .fail | .interrupt => true
  | _ => false

/-- **Callers at once** on one machine. -/
structure Contest where
  /-- The states that the turns so far have found in the cell. -/
  past : List State
  cell : State
  parties : ℕ → Party
  verdicts : List Verdict

namespace Contest

/-- Before the first turn. -/
def start (programs : ℕ → List Event) : Contest := ⟨[], .unstarted, fun k => ⟨none, programs k⟩, []⟩

/-- The number of the turn that comes next. -/
def now (s : Contest) : ℕ := s.past.length

/-- The states of the cell, before and after all turns. -/
def states (s : Contest) : List State := s.past ++ [s.cell]

/-- A turn in which nothing is done. -/
def tick (s : Contest) : Contest := { s with past := s.past ++ [s.cell] }

/-- A caller with another call, or none. -/
def seat (s : Contest) (k : ℕ) (bid : Option Bid) (events : List Event) : Contest :=
  { s with parties := Function.update s.parties k ⟨bid, events⟩ }

/-- **The turn of a caller**: the load of its next call, or the next step of the call that is under way. -/
def turn (s : Contest) (k : ℕ) : Contest :=
  match s.parties k with
  | ⟨none, []⟩ => s.tick
  | ⟨none, e :: rest⟩ =>
    match Attempt.step e s.cell .fresh with
    | (.seen state, cell) => { s.tick.seat k (some ⟨e, state, s.now, s.now, 0⟩) rest with cell := cell }
    | _ => s.tick
  | ⟨some b, rest⟩ =>
    match Attempt.step b.event s.cell (.seen b.seen) with
    | (.seen state, cell) =>
      let b := { b with seen := state, looked := s.now, lost := b.lost + 1 }
      { s.tick.seat k (some b) rest with cell := cell }
    | (.returned (.ok next), cell) =>
      let v : Verdict := ⟨k, b.event, .ok next, b.began, s.now, b.lost⟩
      { s.tick.seat k none rest with cell := cell, verdicts := s.verdicts ++ [v] }
    | (.returned (.error e), cell) =>
      let v : Verdict := ⟨k, b.event, .error e, b.began, b.looked, b.lost⟩
      { s.tick.seat k none rest with cell := cell, verdicts := s.verdicts ++ [v] }
    | _ => s.tick

/-- **Turns in any order.** -/
def run (s : Contest) (schedule : List ℕ) : Contest := schedule.foldl turn s

/-! ## One turn -/

/-- **The cases of a turn.** -/
inductive Turns (s : Contest) (k : ℕ) : Contest → Prop
  /-- There is nothing left to do. -/
  | idle (done : s.parties k = ⟨none, []⟩) : Turns s k s.tick
  /-- A call begins with its load. -/
  | loads {e : Event} {rest : List Event} (here : s.parties k = ⟨none, e :: rest⟩) :
      Turns s k (s.tick.seat k (some ⟨e, s.cell, s.now, s.now, 0⟩) rest)
  /-- The exchange is lost to somebody who has been faster. -/
  | loses {b : Bid} {rest : List Event} (here : s.parties k = ⟨some b, rest⟩) {next : State}
      (legal : b.seen.next? b.event = some next) (stale : s.cell ≠ b.seen) :
      Turns s k (s.tick.seat k
        (some { b with seen := s.cell, looked := s.now, lost := b.lost + 1 }) rest)
  | wins {b : Bid} {rest : List Event} (here : s.parties k = ⟨some b, rest⟩) {next : State}
      (legal : s.cell.next? b.event = some next) (fresh : b.seen = s.cell) :
      Turns s k { s.tick.seat k none rest with
        cell := next
        verdicts := s.verdicts ++ [⟨k, b.event, .ok next, b.began, s.now, b.lost⟩] }
  | refused {b : Bid} {rest : List Event} (here : s.parties k = ⟨some b, rest⟩)
      (illegal : b.seen.next? b.event = none) :
      Turns s k { s.tick.seat k none rest with verdicts := s.verdicts ++ [b.refusal k] }

variable {s t : Contest} {k : ℕ}

theorem turns (s : Contest) (k : ℕ) : s.Turns k (s.turn k) := by
  unfold turn
  rcases here : s.parties k with ⟨_ | b, events⟩
  · cases events with
    | nil => exact .idle here
    | cons e rest => exact .loads here
  · cases legal : b.seen.next? b.event with
    | none =>
        simp only [Attempt.step, legal]
        exact .refused here legal
    | some next =>
        by_cases fresh : s.cell = b.seen
        · simp only [Attempt.step, legal, if_pos fresh]
          exact .wins here (fresh ▸ legal) fresh.symm
        · simp only [Attempt.step, legal, if_neg fresh]
          exact .loses here legal fresh

/-- The calls that are under way after a caller has been seated. -/
lemma bid_seat {bid : Option Bid} {events : List Event} {j : ℕ} {b : Bid} :
    ((s.seat k bid events).parties j).bid = some b
      ↔ (j = k ∧ bid = some b) ∨ (j ≠ k ∧ (s.parties j).bid = some b) := by
  by_cases same : j = k
  · subst same
    simp [seat]
  · simp [seat, same]

/-- **What every turn keeps** holds after all turns. -/
lemma run_keeps {programs : ℕ → List Event} {P : List ℕ → Contest → Prop}
    (begins : P [] (start programs))
    (step : ∀ schedule s k t, P schedule s → s.Turns k t → P (schedule ++ [k]) t) (schedule : List ℕ) :
    P schedule ((start programs).run schedule) := by
  induction schedule using List.reverseRecOn with
  | nil => exact begins
  | append_singleton schedule k ih =>
      have last := step schedule _ k _ ih (turns _ k)
      simpa [run] using last

end Contest

/-! ## What is known of the calls -/

/-- The way of a job is six states long. -/
lemma State.rank_le (s : State) : s.rank ≤ 6 := by
  cases s <;> simp [State.rank]

/-- Events that tell the outcome are legal up to the same point of the way. -/
lemma Event.last_of_settles {e : Event} (settles : e.settles = true) : e.last = 4 := by
  cases e <;> simp [Event.settles, Event.last] at settles ⊢

/-- **What is known of a call under way**, after turns that have found these states: what it has seen was there
when it looked, whoever has been faster since has led the job on, and every exchange that it has lost has led
it on as well. -/
structure Bid.Sound (past : List State) (cell : State) (b : Bid) : Prop where
  began : b.began ≤ b.looked
  seen : past[b.looked]? = some b.seen
  behind : b.seen = cell ∨ b.seen.rank < cell.rank
  lost : b.lost ≤ b.seen.rank

namespace Bid.Sound

variable {past : List State} {cell : State} {b : Bid}

lemma looked (h : b.Sound past cell) : b.looked < past.length := by
  have found := h.seen
  rw [List.getElem?_eq_some_iff] at found
  exact found.1

/-- Somebody else's turn. -/
lemma later (h : b.Sound past cell) {next : State} (forward : cell = next ∨ cell.rank < next.rank) :
    b.Sound (past ++ [cell]) next where
  began := h.began
  seen := by rw [List.getElem?_append_left h.looked, h.seen]
  behind := by
    rcases h.behind with same | behind <;> rcases forward with rfl | forward
    · exact .inl same
    · exact .inr (same ▸ forward)
    · exact .inr behind
    · exact .inr (behind.trans forward)
  lost := h.lost

/-- The first look. -/
lemma load (past : List State) (cell : State) (e : Event) :
    Bid.Sound (past ++ [cell]) cell ⟨e, cell, past.length, past.length, 0⟩ :=
  ⟨le_rfl, by simp, .inl rfl, Nat.zero_le _⟩

/-- **An exchange that is lost** shows a state that is farther on. -/
lemma lose (h : b.Sound past cell) (stale : cell ≠ b.seen) :
    Bid.Sound (past ++ [cell]) cell
      { b with seen := cell, looked := past.length, lost := b.lost + 1 } := by
  have forward : b.seen.rank < cell.rank := h.behind.resolve_left (Ne.symm stale)
  exact ⟨h.began.trans h.looked.le, by simp, .inl rfl, Nat.succ_le_of_lt (h.lost.trans_lt forward)⟩

end Bid.Sound

/-- **What is known of a call that has returned**: it has been told what the machine told at its last access. -/
structure Verdict.Sound (past : List State) (v : Verdict) : Prop where
  began : v.began ≤ v.looked
  told : ∃ s, past[v.looked]? = some s ∧ ∀ job, ((⟨job, s⟩ : Machine).transition v.event).1 = v.result
  lost : v.lost ≤ 6

namespace Verdict.Sound

variable {past : List State} {v : Verdict}

lemma looked (h : v.Sound past) : v.looked < past.length := by
  obtain ⟨s, found, -⟩ := h.told
  rw [List.getElem?_eq_some_iff] at found
  exact found.1

lemma later (h : v.Sound past) (cell : State) : v.Sound (past ++ [cell]) := by
  obtain ⟨s, found, told⟩ := h.told
  exact ⟨h.began, ⟨s, by rw [List.getElem?_append_left h.looked, found], told⟩, h.lost⟩

/-- A call that has been refused names the state that it has found. -/
lemma refused (h : v.Sound past) {i : Illegal}
    (refused : v.result = .error i) :
    i.event = v.event ∧ i.state.next? v.event = none ∧ past[v.looked]? = some i.state := by
  obtain ⟨s, found, told⟩ := h.told
  have answer : ((⟨"", s⟩ : Machine).transition v.event).1 = .error i := (told "").trans refused
  cases legal : s.next? v.event with
  | none =>
      rw [Machine.transition_of_illegal legal] at answer
      obtain rfl := Except.error.inj answer
      exact ⟨rfl, legal, found⟩
  | some next =>
      rw [Machine.transition_of_legal legal] at answer
      cases answer

end Verdict.Sound

namespace Contest

variable {s t : Contest} {k : ℕ}

/-- **One state of the cell and the next**: they are the same, or a call has led from one to the other. -/
def Leads (verdicts : List Verdict) (before after : State) : Prop :=
  before = after ∨ ∃ v ∈ verdicts, v.result = .ok after ∧ Moves before v.event after

/-- **What is known of all calls**, and of the way of the cell. -/
structure Sound (s : Contest) : Prop where
  bids : ∀ {k b}, (s.parties k).bid = some b → b.Sound s.past s.cell
  verdicts : ∀ v ∈ s.verdicts, v.Sound s.past
  starts : s.states.head? = some .unstarted
  path : s.states.IsChain (Leads s.verdicts)

namespace Sound

lemma start (programs : ℕ → List Event) : (start programs).Sound where
  bids := by simp [Contest.start]
  verdicts := by simp [Contest.start]
  starts := rfl
  path := by simp [Contest.start, states]

/-- **Every turn** keeps this, whose calls and verdicts it may change. -/
lemma of_turn (h : s.Sound) {next : State} {parties : ℕ → Party} {verdicts : List Verdict}
    (forward : s.cell = next ∨ s.cell.rank < next.rank)
    (bids : ∀ k b, (parties k).bid = some b → (s.parties k).bid = some b ∨ b.Sound (s.past ++ [s.cell]) next)
    (more : ∀ v ∈ verdicts, v ∈ s.verdicts ∨ v.Sound (s.past ++ [s.cell]))
    (kept : ∀ v ∈ s.verdicts, v ∈ verdicts) (leads : Leads verdicts s.cell next) :
    Sound ⟨s.past ++ [s.cell], next, parties, verdicts⟩ where
  bids := fun {k b} found => (bids k b found).elim (fun before => (h.bids before).later forward) id
  verdicts := fun v member => (more v member).elim (fun before => (h.verdicts v before).later s.cell) id
  starts := by
    have starts := h.starts
    simp only [states] at starts ⊢
    rw [List.head?_append, starts]
    rfl
  path := by
    have before : (s.past ++ [s.cell]).IsChain (Leads verdicts) := h.path.imp fun a b leads =>
      leads.imp_right fun ⟨v, member, rest⟩ => ⟨v, kept v member, rest⟩
    refine List.isChain_append.mpr ⟨before, List.isChain_singleton _, ?_⟩
    simpa using leads

theorem step (h : s.Sound) (turns : s.Turns k t) : t.Sound := by
  cases turns with
  | idle done => exact h.of_turn (.inl rfl) (fun _ _ => .inl) (fun _ => .inl) (fun _ => id) (.inl rfl)
  | loads here =>
      refine h.of_turn (.inl rfl) (fun j b found => ?_) (fun _ => .inl) (fun _ => id) (.inl rfl)
      rcases bid_seat.mp found with ⟨-, same⟩ | ⟨-, before⟩
      · obtain rfl := Option.some.inj same
        exact .inr (.load s.past s.cell _)
      · exact .inl before
  | loses here legal stale =>
      refine h.of_turn (.inl rfl) (fun j b found => ?_) (fun _ => .inl) (fun _ => id) (.inl rfl)
      rcases bid_seat.mp found with ⟨-, same⟩ | ⟨-, before⟩
      · obtain rfl := Option.some.inj same
        exact .inr ((h.bids (by rw [here])).lose stale)
      · exact .inl before
  | @wins b rest here next legal fresh =>
      have sound := h.bids (k := k) (b := b) (by rw [here])
      refine h.of_turn (.inr ?_) (fun j b found => ?_) (fun v member => ?_)
        (fun v member => List.mem_append_left _ member) (.inr ⟨_, List.mem_append_right _ List.mem_cons_self, rfl,
          next?_eq_some_iff.mp legal⟩)
      · obtain ⟨early, late⟩ := State.rank_next legal
        exact early.trans_lt late
      · rcases bid_seat.mp found with ⟨-, same⟩ | ⟨-, before⟩
        · cases same
        · exact .inl before
      · refine (List.mem_append.mp member).imp_right fun new => ?_
        obtain rfl := List.mem_singleton.mp new
        refine ⟨sound.began.trans sound.looked.le, ⟨s.cell, by simp [now], fun job => ?_⟩,
          sound.lost.trans b.seen.rank_le⟩
        rw [Machine.transition_of_legal legal]
  | @refused b rest here illegal =>
      have sound := h.bids (k := k) (b := b) (by rw [here])
      refine h.of_turn (.inl rfl) (fun j b found => ?_) (fun v member => ?_)
        (fun v member => List.mem_append_left _ member) (.inl rfl)
      · rcases bid_seat.mp found with ⟨-, same⟩ | ⟨-, before⟩
        · cases same
        · exact .inl before
      · refine (List.mem_append.mp member).imp_right fun new => ?_
        obtain rfl := List.mem_singleton.mp new
        have found : (s.past ++ [s.cell])[b.looked]? = some b.seen := by
          rw [List.getElem?_append_left sound.looked, sound.seen]
        refine ⟨sound.began, ⟨b.seen, found, fun job => ?_⟩, sound.lost.trans b.seen.rank_le⟩
        rw [Machine.transition_of_illegal illegal]
        rfl

end Sound

/-! ## The order of the calls -/

/-- **A call that is going to be refused**: it has seen that its event is not legal. -/
def Pends (s : Contest) (v : Verdict) : Prop :=
  ∃ k b, (s.parties k).bid = some b ∧ b.seen.next? b.event = none ∧ v = b.refusal k

/-- **A log of the calls**, those that have returned and those that are going to be refused, in the order of
their last access: to a machine alone it means the same. -/
structure Linear (s : Contest) (log : List Verdict) : Prop where
  mem_iff : ∀ v, v ∈ log ↔ v ∈ s.verdicts ∨ s.Pends v
  nodup : s.verdicts.Nodup
  /-- No two calls look at the cell in the same turn. -/
  apart : ∀ {j k b c}, (s.parties j).bid = some b → (s.parties k).bid = some c → b.looked = c.looked → j = k
  gone : ∀ {k b}, (s.parties k).bid = some b → ∀ v ∈ s.verdicts, v.looked ≠ b.looked
  ordered : log.Pairwise fun v w => v.looked < w.looked
  told : ∀ job, (Machine.new job).told (log.map Verdict.event) = log.map Verdict.result
  cell : ∀ job, ((Machine.new job).advance (log.map Verdict.event)).state = s.cell

namespace Linear

variable {log : List Verdict}

lemma start (programs : ℕ → List Event) : (start programs).Linear [] where
  mem_iff := by simp [Contest.start, Pends]
  nodup := List.nodup_nil
  apart := by simp [Contest.start]
  gone := by simp [Contest.start]
  ordered := .nil
  told := fun _ => rfl
  cell := fun _ => rfl

/-- What is in the log has been seen in turns that are past. -/
lemma looked (h : s.Linear log) (sound : s.Sound) {v : Verdict} (member : v ∈ log) :
    v.began ≤ v.looked ∧ v.looked < s.now := by
  rcases (h.mem_iff v).mp member with returned | ⟨k, b, found, -, rfl⟩
  · exact ⟨(sound.verdicts v returned).began, (sound.verdicts v returned).looked⟩
  · exact ⟨(sound.bids found).began, (sound.bids found).looked⟩

/-- What a machine alone does with another event. -/
lemma transition (h : s.Linear log) (job : String) (e : Event) :
    ((Machine.new job).advance (log.map Verdict.event)).transition e
      = Machine.transition ⟨((Machine.new job).advance (log.map Verdict.event)).job, s.cell⟩ e := by
  rw [← h.cell job]

/-- **A look at the cell**: a call that sees that its event is not legal is entered into the log. -/
lemma look (h : s.Linear log) (sound : s.Sound)
    (quiet : ∀ c, (s.parties k).bid = some c → c.seen.next? c.event ≠ none) {b : Bid} (seen : b.seen = s.cell)
    (looked : b.looked = s.now) (events : List Event) :
    ∃ log', (s.tick.seat k (some b) events).Linear log' := by
  have pends : ∀ v, (s.tick.seat k (some b) events).Pends v
      ↔ s.Pends v ∨ (s.cell.next? b.event = none ∧ v = b.refusal k) := by
    intro v
    constructor
    · rintro ⟨j, c, found, illegal, rfl⟩
      rcases bid_seat.mp found with ⟨rfl, same⟩ | ⟨-, before⟩
      · obtain rfl := Option.some.inj same
        exact .inr ⟨seen ▸ illegal, rfl⟩
      · exact .inl ⟨j, c, before, illegal, rfl⟩
    · rintro (⟨j, c, found, illegal, rfl⟩ | ⟨illegal, rfl⟩)
      · have other : j ≠ k := fun same => quiet c (same ▸ found) illegal
        exact ⟨j, c, bid_seat.mpr (.inr ⟨other, found⟩), illegal, rfl⟩
      · exact ⟨k, b, bid_seat.mpr (.inl ⟨rfl, rfl⟩), seen ▸ illegal, rfl⟩
  have apart : ∀ {i j c d}, ((s.tick.seat k (some b) events).parties i).bid = some c →
      ((s.tick.seat k (some b) events).parties j).bid = some d → c.looked = d.looked → i = j := by
    intro i j c d first second same
    rcases bid_seat.mp first with ⟨rfl, here⟩ | ⟨-, before⟩ <;>
      rcases bid_seat.mp second with ⟨rfl, there⟩ | ⟨-, before'⟩
    · rfl
    · obtain rfl := Option.some.inj here
      exact absurd (looked.symm.trans same) (sound.bids before').looked.ne'
    · obtain rfl := Option.some.inj there
      exact absurd (same.trans looked) (sound.bids before).looked.ne
    · exact h.apart before before' same
  have gone : ∀ {j c}, ((s.tick.seat k (some b) events).parties j).bid = some c →
      ∀ v ∈ s.verdicts, v.looked ≠ c.looked := by
    intro j c found v member
    rcases bid_seat.mp found with ⟨-, here⟩ | ⟨-, before⟩
    · obtain rfl := Option.some.inj here
      exact looked ▸ (sound.verdicts v member).looked.ne
    · exact h.gone before v member
  cases legal : s.cell.next? b.event with
  | some next =>
      refine ⟨log, ⟨fun v => ?_, h.nodup, apart, gone, h.ordered, h.told, h.cell⟩⟩
      rw [h.mem_iff, pends]
      simp [legal, seat, tick]
  | none =>
      refine ⟨log ++ [b.refusal k], ⟨fun v => ?_, h.nodup, apart, gone, ?_, fun job => ?_, fun job => ?_⟩⟩
      · rw [List.mem_append, List.mem_singleton, h.mem_iff, pends, or_assoc]
        simp [legal, seat, tick]
      · refine List.pairwise_append.mpr ⟨h.ordered, List.pairwise_singleton .., fun v member w new => ?_⟩
        obtain rfl := List.mem_singleton.mp new
        exact (h.looked sound member).2.trans_eq looked.symm
      · simp only [List.map_append, List.map_cons, List.map_nil, Machine.told_concat, h.told]
        rw [show (b.refusal k).event = b.event from rfl, h.transition, Machine.transition_of_illegal legal]
        simp [Bid.refusal, seen]
      · simp only [List.map_append, List.map_cons, List.map_nil, Machine.advance_concat]
        rw [show (b.refusal k).event = b.event from rfl, h.transition, Machine.transition_of_illegal legal]
        rfl

/-- The calls of the others that are going to be refused, once a caller has nothing under way. -/
lemma pends_seat_none {events : List Event} {v : Verdict} :
    (s.tick.seat k none events).Pends v
      ↔ ∃ j c, j ≠ k ∧ (s.parties j).bid = some c ∧ c.seen.next? c.event = none ∧ v = c.refusal j := by
  constructor
  · rintro ⟨j, c, found, rest⟩
    rcases bid_seat.mp found with ⟨-, same⟩ | ⟨other, before⟩
    · cases same
    · exact ⟨j, c, other, before, rest⟩
  · rintro ⟨j, c, other, found, rest⟩
    exact ⟨j, c, bid_seat.mpr (.inr ⟨other, found⟩), rest⟩

/-- **An exchange that is won** is entered into the log. -/
lemma win (h : s.Linear log) (sound : s.Sound) {b : Bid} {rest : List Event}
    (here : s.parties k = ⟨some b, rest⟩) {next : State} (legal : s.cell.next? b.event = some next)
    (fresh : b.seen = s.cell) :
    ∃ log', Linear { s.tick.seat k none rest with
      cell := next
      verdicts := s.verdicts ++ [⟨k, b.event, .ok next, b.began, s.now, b.lost⟩] } log' := by
  have others : ∀ {j c}, ((s.tick.seat k none rest).parties j).bid = some c → (s.parties j).bid = some c :=
    fun found => (bid_seat.mp found).elim (fun same => by simp at same) And.right
  refine ⟨log ++ [⟨k, b.event, .ok next, b.began, s.now, b.lost⟩],
    ⟨fun v => ?_, ?_, fun first second => h.apart (others first) (others second),
      fun found v member => ?_, ?_, fun job => ?_, fun job => ?_⟩⟩
  · have pends : (s.tick.seat k none rest).Pends v ↔ s.Pends v := by
      rw [pends_seat_none]
      refine exists₂_congr fun j c => and_iff_right_of_imp ?_
      rintro ⟨found, illegal, -⟩ rfl
      obtain rfl : b = c := by simpa [here] using found
      rw [fresh, legal] at illegal
      cases illegal
    have same : v ∈ s.verdicts ∨ s.Pends v ↔ v ∈ log := (h.mem_iff v).symm
    simp only [List.mem_append]
    rw [← same, ← pends]
    exact or_right_comm
  · refine List.nodup_append.mpr ⟨h.nodup, List.nodup_singleton _, fun v member w new => ?_⟩
    rintro rfl
    obtain rfl := List.mem_singleton.mp new
    exact (sound.verdicts _ member).looked.ne rfl
  · rcases List.mem_append.mp member with before | new
    · exact h.gone (others found) v before
    · obtain rfl := List.mem_singleton.mp new
      exact (sound.bids (others found)).looked.ne'
  · refine List.pairwise_append.mpr ⟨h.ordered, List.pairwise_singleton .., fun v member w new => ?_⟩
    obtain rfl := List.mem_singleton.mp new
    exact (h.looked sound member).2
  · simp only [List.map_append, List.map_cons, List.map_nil, Machine.told_concat, h.told]
    rw [h.transition, Machine.transition_of_legal legal]
  · simp only [List.map_append, List.map_cons, List.map_nil, Machine.advance_concat]
    rw [h.transition, Machine.transition_of_legal legal]

/-- **A call that is refused** is in the log already. -/
lemma refuse (h : s.Linear log) {b : Bid} {rest : List Event} (here : s.parties k = ⟨some b, rest⟩)
    (illegal : b.seen.next? b.event = none) :
    Linear { s.tick.seat k none rest with verdicts := s.verdicts ++ [b.refusal k] } log := by
  have found : (s.parties k).bid = some b := by rw [here]
  have others : ∀ {j c}, ((s.tick.seat k none rest).parties j).bid = some c →
      j ≠ k ∧ (s.parties j).bid = some c :=
    fun found => (bid_seat.mp found).elim (fun same => by simp at same) id
  refine ⟨fun v => ?_, ?_, fun first second => h.apart (others first).2 (others second).2,
    fun {j c} there v member => ?_, h.ordered, h.told, h.cell⟩
  · have pends : s.Pends v ↔ v = b.refusal k ∨ (s.tick.seat k none rest).Pends v := by
      rw [pends_seat_none]
      constructor
      · rintro ⟨j, c, there, rest⟩
        by_cases same : j = k
        · subst same
          obtain rfl := Option.some.inj (there.symm.trans found)
          exact .inl rest.2
        · exact .inr ⟨j, c, same, there, rest⟩
      · rintro (rfl | ⟨j, c, -, rest⟩)
        · exact ⟨k, b, found, illegal, rfl⟩
        · exact ⟨j, c, rest⟩
    have same : v ∈ log ↔ v ∈ s.verdicts ∨ s.Pends v := h.mem_iff v
    simp only [List.mem_append, List.mem_singleton]
    rw [same, pends]
    exact or_assoc.symm
  · refine List.nodup_append.mpr ⟨h.nodup, List.nodup_singleton _, fun v member w new => ?_⟩
    rintro rfl
    obtain rfl := List.mem_singleton.mp new
    exact h.gone found _ member rfl
  · obtain ⟨other, before⟩ := others there
    rcases List.mem_append.mp member with earlier | new
    · exact h.gone before v earlier
    · obtain rfl := List.mem_singleton.mp new
      exact fun same => other (h.apart found before same).symm

/-- **Every turn** keeps a log. -/
theorem step (h : s.Linear log) (sound : s.Sound) (turns : s.Turns k t) : ∃ log', t.Linear log' := by
  cases turns with
  | idle done =>
      exact ⟨log, ⟨h.mem_iff, h.nodup, h.apart, h.gone, h.ordered, h.told, h.cell⟩⟩
  | loads here =>
      exact h.look sound (by simp [here]) rfl rfl _
  | loses here legal stale =>
      exact h.look sound (by simp [here, legal]) rfl rfl _
  | wins here legal fresh => exact h.win sound here legal fresh
  | refused here illegal => exact ⟨log, h.refuse here illegal⟩

end Linear

end Contest

/-! ## What a log tells -/

namespace Machine

variable {m : Machine} {log : List Verdict}

/-- **Calls that have been refused** can be left out. -/
lemma told_filter (told : m.told (log.map Verdict.event) = log.map Verdict.result) {p : Verdict → Bool}
    (refused : ∀ v ∈ log, p v = false → ∃ e, v.result = .error e) :
    m.told ((log.filter p).map Verdict.event) = (log.filter p).map Verdict.result
      ∧ m.advance ((log.filter p).map Verdict.event) = m.advance (log.map Verdict.event) := by
  induction log generalizing m with
  | nil => exact ⟨rfl, rfl⟩
  | cons v log ih =>
      obtain ⟨first, rest⟩ : (m.transition v.event).1 = v.result ∧ _ := List.cons.inj told
      obtain ⟨told', same⟩ := ih rest fun w member => refused w (List.mem_cons_of_mem v member)
      cases kept : p v with
      | true =>
          rw [List.filter_cons_of_pos kept]
          exact ⟨congrArg₂ List.cons first told', same⟩
      | false =>
          obtain ⟨e, error⟩ := refused v List.mem_cons_self kept
          have stays : (m.transition v.event).2 = m := by
            rw [error] at first
            cases legal : m.state.next? v.event with
            | none => rw [transition_of_illegal legal]
            | some next => simp [transition_of_legal legal] at first
          rw [List.filter_cons_of_neg (by simp [kept])]
          rw [stays] at told' same
          exact ⟨told', same.trans (by simp [advance, stays])⟩

/-- **Events that are applied** lead on and on. -/
lemma told_strict (told : m.told (log.map Verdict.event) = log.map Verdict.result) :
    (∀ v ∈ log.filter (·.succeeds), m.state.rank ≤ v.event.last)
      ∧ (log.filter (·.succeeds)).Pairwise fun v w => v.event.last < w.event.last := by
  induction log generalizing m with
  | nil => simp
  | cons v log ih =>
      obtain ⟨first, rest⟩ : (m.transition v.event).1 = v.result ∧ _ := List.cons.inj told
      obtain ⟨early, ordered⟩ := ih rest
      cases legal : m.state.next? v.event with
      | none =>
          rw [transition_of_illegal legal] at first early
          have refused : v.succeeds ≠ true := by simp [Verdict.succeeds, ← first, Except.isOk, Except.toBool]
          rw [List.filter_cons_of_neg refused]
          exact ⟨early, ordered⟩
      | some next =>
          obtain ⟨before, after⟩ := State.rank_next legal
          rw [transition_of_legal legal] at first early
          have applied : v.succeeds = true := by simp [Verdict.succeeds, ← first, Except.isOk, Except.toBool]
          have later : ∀ w ∈ log.filter (·.succeeds), v.event.last < w.event.last := fun w member =>
            after.trans_le (early w member)
          rw [List.filter_cons_of_pos applied]
          refine ⟨fun w member => ?_, List.pairwise_cons.mpr ⟨later, ordered⟩⟩
          rcases List.mem_cons.mp member with rfl | other
          · exact before
          · exact before.trans (later w other).le

/-- **Of events up to the same point** of the way at most one is applied. -/
lemma countP_le_one (told : m.told (log.map Verdict.event) = log.map Verdict.result) {p : Verdict → Bool} {n : ℕ}
    (within : ∀ v, p v = true → v.succeeds = true ∧ v.event.last = n) : log.countP p ≤ 1 := by
  have ordered := (told_strict told).2
  have same : log.countP p = (log.filter (·.succeeds)).countP p := by
    rw [List.countP_filter]
    refine List.countP_congr fun v _ => ?_
    simp only [Bool.and_eq_true]
    exact ⟨fun h => ⟨h, (within v h).1⟩, And.left⟩
  rw [same, List.countP_eq_length_filter]
  have few := ordered.filter p
  have here : ∀ v ∈ (log.filter (·.succeeds)).filter p, v.event.last = n := fun v member =>
    (within v (List.mem_filter.mp member).2).2
  generalize (log.filter (·.succeeds)).filter p = hits at few here
  cases few with
  | nil => simp
  | @cons v hits first _ =>
      refine Nat.succ_le_succ (Nat.le_of_eq (List.length_eq_zero_iff.mpr ?_))
      refine List.eq_nil_iff_forall_not_mem.mpr fun w member => ?_
      have less := first w member
      rw [here v List.mem_cons_self, here w (List.mem_cons_of_mem v member)] at less
      exact lt_irrefl n less

end Machine

/-! ## How many turns a call takes -/

/-- The calls of a caller that have returned. -/
def Contest.of (s : Contest) (k : ℕ) : List Verdict := s.verdicts.filter fun v => v.caller = k

/-- **How far a caller is** after some turns: its calls come in the order of its program, and a call has taken
one turn for its load, one for each exchange that it has lost, and one more when it has returned. -/
structure Party.Paced (program : List Event) (turns : ℕ) (returned : List Verdict) (p : Party) : Prop where
  order : returned.map Verdict.event ++ (p.bid.map Bid.event).toList ++ p.events = program
  pace : p = ⟨none, []⟩ ∨ turns ≤ 8 * returned.length + (p.bid.elim 0 fun b => b.lost + 1)

namespace Contest

variable {s t : Contest} {k : ℕ} {programs : ℕ → List Event} {schedule : List ℕ}

/-- **How far everybody is.** -/
def Paced (programs : ℕ → List Event) (schedule : List ℕ) (s : Contest) : Prop :=
  ∀ k, (s.parties k).Paced (programs k) (schedule.count k) (s.of k)

namespace Paced

lemma start : (start programs).Paced programs [] :=
  fun k => ⟨by simp [Contest.start, of], .inr (by simp [Contest.start, of])⟩

/-- A turn of one caller, after which the others are as far as before. -/
lemma of_turn (h : s.Paced programs schedule) {cell : State} {verdicts : List Verdict} {p : Party}
    (others : ∀ j, j ≠ k → verdicts.filter (fun v => v.caller = j) = s.of j)
    (own : p.Paced (programs k) (schedule.count k + 1) (verdicts.filter fun v => v.caller = k)) :
    Paced programs (schedule ++ [k]) ⟨s.past ++ [s.cell], cell, Function.update s.parties k p, verdicts⟩ := by
  intro j
  by_cases same : j = k
  · subst same
    simpa [of] using own
  · have before := h j
    rw [← others j same] at before
    simpa [of, same, Ne.symm same] using before

/-- The calls of the callers, after one of them has returned. -/
lemma of_append (s : Contest) (v : Verdict) (j : ℕ) :
    (s.verdicts ++ [v]).filter (fun w => w.caller = j)
      = if v.caller = j then s.of j ++ [v] else s.of j := by
  rw [List.filter_append]
  split_ifs with here <;> simp [of, here]

/-- **A call that has returned** has not taken more than eight turns. -/
lemma returns (h : s.Paced programs schedule) (sound : s.Sound) {b : Bid} {rest : List Event}
    (here : s.parties k = ⟨some b, rest⟩) {v : Verdict} (caller : v.caller = k) (event : v.event = b.event)
    (cell : State) :
    Paced programs (schedule ++ [k]) { s.tick.seat k none rest with
      cell := cell
      verdicts := s.verdicts ++ [v] } := by
  obtain ⟨order, pace⟩ := h k
  have few := (sound.bids (k := k) (b := b) (by rw [here])).lost.trans b.seen.rank_le
  rw [here] at order pace
  refine h.of_turn (fun j other => ?_) ⟨?_, .inr ?_⟩
  · rw [of_append, if_neg fun same => other (same.symm.trans caller)]
  · rw [of_append, if_pos caller]
    simpa [event] using order
  · rw [of_append, if_pos caller]
    have turns : schedule.count k ≤ 8 * (s.of k).length + (b.lost + 1) := by simpa using pace
    simp only [List.length_append, List.length_singleton, Option.elim_none]
    omega

theorem step (h : s.Paced programs schedule) (sound : s.Sound) (turns : s.Turns k t) :
    t.Paced programs (schedule ++ [k]) := by
  obtain ⟨order, pace⟩ := h k
  cases turns with
  | idle done =>
      have same : s.tick = ⟨s.past ++ [s.cell], s.cell, Function.update s.parties k (s.parties k),
          s.verdicts⟩ := by
        rw [Function.update_eq_self]
        rfl
      rw [same]
      exact h.of_turn (fun _ _ => rfl) ⟨order, .inl done⟩
  | loads here =>
      rw [here] at order pace
      refine h.of_turn (fun _ _ => rfl) ⟨by simpa [of, tick] using order, .inr ?_⟩
      have turns : schedule.count k ≤ 8 * (s.of k).length := by simpa using pace
      simpa [of, tick] using turns
  | @loses b rest here next legal stale =>
      rw [here] at order pace
      refine h.of_turn (fun _ _ => rfl) ⟨by simpa [of, tick] using order, .inr ?_⟩
      have turns : schedule.count k ≤ 8 * (s.of k).length + (b.lost + 1) := by simpa using pace
      simpa [of, tick, ← Nat.add_assoc] using turns
  | wins here legal fresh => exact h.returns sound here rfl rfl _
  | refused here illegal => exact h.returns sound here rfl rfl _

/-- **Eight turns for every call** are enough. -/
lemma all_returned (h : s.Paced programs schedule) (sound : s.Sound)
    (enough : 8 * (programs k).length ≤ schedule.count k) :
    (s.of k).map Verdict.event = programs k := by
  obtain ⟨order, pace⟩ := h k
  rcases here : s.parties k with ⟨bid, events⟩
  rw [here] at order pace
  have length := congrArg List.length order
  cases bid with
  | none =>
      cases events with
      | nil => simpa using order
      | cons e rest =>
          have turns : schedule.count k ≤ 8 * (s.of k).length := by simpa using pace
          have calls : (s.of k).length + (rest.length + 1) = (programs k).length := by simpa using length
          omega
  | some b =>
      have few := (sound.bids (k := k) (b := b) (by rw [here])).lost.trans b.seen.rank_le
      have turns : schedule.count k ≤ 8 * (s.of k).length + (b.lost + 1) := by simpa using pace
      have calls : (s.of k).length + 1 + events.length = (programs k).length := by
        simpa [Nat.add_assoc, Nat.add_comm] using length
      omega

end Paced

/-! ## Runs -/

/-- **What every run keeps.** -/
theorem run_fair (programs : ℕ → List Event) (schedule : List ℕ) :
    ((start programs).run schedule).Sound ∧ (∃ log, ((start programs).run schedule).Linear log)
      ∧ ((start programs).run schedule).Paced programs schedule :=
  run_keeps (P := fun schedule s => s.Sound ∧ (∃ log, s.Linear log) ∧ s.Paced programs schedule)
    ⟨.start programs, ⟨[], .start programs⟩, .start⟩
    (fun _ _ _ _ ⟨sound, ⟨_, linear⟩, paced⟩ turns =>
      ⟨sound.step turns, linear.step sound turns, paced.step sound turns⟩) schedule

/-- **The calls that have returned, one after the other**: the log without those that are still going to be
refused. -/
lemma Linear.exists_order {log : List Verdict} (h : s.Linear log) (sound : s.Sound) (job : String) :
    ∃ order : List Verdict, order.Perm s.verdicts ∧ order.Pairwise (fun v w => ¬ w.Precedes v)
      ∧ (Machine.new job).told (order.map Verdict.event) = order.map Verdict.result
      ∧ ((Machine.new job).advance (order.map Verdict.event)).state = s.cell := by
  classical
  obtain ⟨told, same⟩ := Machine.told_filter (p := fun v => decide (v ∈ s.verdicts)) (h.told job)
    fun v member out => by
      rcases (h.mem_iff v).mp member with returned | ⟨k, b, -, -, rfl⟩
      · simp [returned] at out
      · exact ⟨_, rfl⟩
  refine ⟨log.filter fun v => decide (v ∈ s.verdicts), ?_, ?_, told, ?_⟩
  · have nodup : log.Nodup := h.ordered.imp fun less same => by simp [same] at less
    refine (List.perm_ext_iff_of_nodup (nodup.filter _) h.nodup).mpr fun v => ?_
    rw [List.mem_filter, h.mem_iff]
    simpa using Or.inl
  · refine (h.ordered.imp_of_mem fun {v w} first second less precedes => ?_).filter _
    exact ((h.looked sound first).1.trans_lt (less.trans precedes)).false
  · rw [same]
    exact h.cell job

/-- **The machine is linearizable.**  However many callers apply whatever events, and whatever the order of
their turns: the calls that have returned can be put in an order that respects real time, in which a machine
alone tells every caller the same and ends in the same state; who is refused is told a state that the machine
was in during the call; the states of the machine are a path of the table; no event is applied twice, and one
outcome at most; no call loses more than six exchanges; and whoever gets eight turns for each call is told the
results of all of them. -/
theorem linearizable (job : String) (programs : ℕ → List Event) (schedule : List ℕ) :
    let s := (start programs).run schedule
    (∃ order : List Verdict, order.Perm s.verdicts ∧ order.Pairwise (fun v w => ¬ w.Precedes v)
      ∧ (Machine.new job).told (order.map Verdict.event) = order.map Verdict.result
      ∧ ((Machine.new job).advance (order.map Verdict.event)).state = s.cell)
    ∧ (∀ v ∈ s.verdicts, ∀ i, v.result = .error i → i.event = v.event ∧ i.state.next? v.event = none
      ∧ ∃ turn, v.began ≤ turn ∧ turn ≤ v.looked ∧ s.states[turn]? = some i.state)
    ∧ s.states.head? = some .unstarted
    ∧ s.states.IsChain (fun a b => a = b ∨ ∃ v ∈ s.verdicts, v.result = .ok b ∧ Moves a v.event b)
    ∧ (∀ e, s.verdicts.countP (fun v => v.succeeds && v.event = e) ≤ 1)
    ∧ s.verdicts.countP (fun v => v.succeeds && v.event.settles) ≤ 1
    ∧ (∀ v ∈ s.verdicts, v.lost ≤ 6)
    ∧ (∀ k b, (s.parties k).bid = some b → b.lost ≤ 6)
    ∧ ∀ k, 8 * (programs k).length ≤ schedule.count k →
      (s.verdicts.filter fun v => v.caller = k).map Verdict.event = programs k := by
  intro s
  obtain ⟨sound, ⟨log, linear⟩, paced⟩ := run_fair programs schedule
  obtain ⟨order, perm, ordered, told, cell⟩ := linear.exists_order sound job
  refine ⟨⟨order, perm, ordered, told, cell⟩, fun v member i refused => ?_, sound.starts, sound.path,
    fun e => ?_, ?_, fun v member => (sound.verdicts v member).lost,
    fun k b under_way => (sound.bids under_way).lost.trans b.seen.rank_le,
    fun k enough => paced.all_returned sound enough⟩
  · have known := sound.verdicts v member
    obtain ⟨same, illegal, found⟩ := known.refused refused
    exact ⟨same, illegal, v.looked, known.began, le_rfl, by
      rw [states, List.getElem?_append_left known.looked, found]⟩
  · rw [← perm.countP_eq]
    refine Machine.countP_le_one told (n := e.last) fun v hit => ?_
    simp only [Bool.and_eq_true, decide_eq_true_eq] at hit
    exact ⟨hit.1, congrArg Event.last hit.2⟩
  · rw [← perm.countP_eq]
    refine Machine.countP_le_one told (n := 4) fun v hit => ?_
    simp only [Bool.and_eq_true] at hit
    exact ⟨hit.1, Event.last_of_settles hit.2⟩

/-- One caller destroys the job, and another leads it through all states to the end. -/
def overtaking : ℕ → List Event
  | 0 => [.destroy]
  | 1 => [.init, .deploy, .submit, .execute, .complete, .destroy]
  | _ => []

/-- Each exchange of the first caller comes after one of the other. -/
def overtakingTurns : List ℕ := [0, 1, 1, 0, 1, 1, 0, 1, 1, 0, 1, 1, 0, 1, 1, 0, 1, 1, 0, 0]

/-- The destruction of a caller who loses six exchanges, and returns with the eighth turn. -/
def overtaken : Verdict := ⟨0, .destroy, .error ⟨.destroyed, .destroy⟩, 0, 18, 6⟩

/-- Six exchanges are lost, and eight turns are taken. -/
theorem overtaken_six_times :
    let s := (start overtaking).run overtakingTurns
    overtaken ∈ s.verdicts ∧ 8 * (overtaking 0).length ≤ overtakingTurns.count 0
      ∧ (∃ order : List Verdict, order.Perm s.verdicts ∧ order.Pairwise (fun v w => ¬ w.Precedes v)
        ∧ (Machine.new "sums").told (order.map Verdict.event) = order.map Verdict.result
        ∧ ((Machine.new "sums").advance (order.map Verdict.event)).state = .destroyed)
      ∧ State.next? .destroyed .destroy = none
      ∧ (∃ turn, 0 ≤ turn ∧ turn ≤ 18 ∧ s.states[turn]? = some .destroyed)
      ∧ s.verdicts.countP (fun v => v.succeeds && v.event = .destroy) ≤ 1
      ∧ overtaken.lost ≤ 6
      ∧ (s.verdicts.filter fun v => v.caller = 0).map Verdict.event = [.destroy] := by
  obtain ⟨order, refusals, -, -, once, -, lost, -, returned⟩ :=
    linearizable "sums" overtaking overtakingTurns
  have member : overtaken ∈ ((start overtaking).run overtakingTurns).verdicts :=
    .tail _ (.tail _ (.tail _ (.tail _ (.tail _ (.tail _ (.head _))))))
  obtain ⟨-, illegal, seen⟩ := refusals overtaken member _ rfl
  exact ⟨member, by decide, order, illegal, seen, once .destroy, lost overtaken member,
    returned 0 (by decide)⟩

end Contest

end ControlPlane.Job
