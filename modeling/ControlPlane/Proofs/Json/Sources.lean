import Mathlib
import ControlPlane.Proofs.Registry.Counters
import ControlPlane.Proofs.Registry.Resources

/-!
# What can come out of a decoder

A decoder for several shapes is put together from decoders for each of them, and what it reads has been
read by one of these, whatever the text is.  So a bound that the parts keep holds of everything that is
read: a counter that comes from a text is one that can be held.

* `Json.Decoder.choice_ok`, `tagged_ok` — a choice, and what stands under a tag.
* `Json.Decoder.table_ok` — the values of a table.
* `Accumulators.inRange_of_decoder` — counters that are read are in range.
-/

namespace ControlPlane

/-- A chain of computations succeeds when each of them does. -/
lemma Except.bind_eq_ok_iff {ε α β : Type} {x : Except ε α} {f : α → Except ε β} {b : β} :
    x >>= f = .ok b ↔ ∃ a, x = .ok a ∧ f a = .ok b := by
  rcases x with e | a <;> simp [bind, Except.bind]

@[simp] lemma Except.throw_ne_ok {ε α : Type} {e : ε} {a : α} :
    (throw e : Except ε α) ≠ .ok a := by
  simp [throw, throwThe, MonadExceptOf.throw]

namespace Json

variable {α : Type}

/-! ## Endings -/

lemma Ending.strict_ok {e : Ending} {a b : α} (read : e.strict a = .ok b) : a = b := by
  cases e <;> simp_all [Ending.strict]

lemma Items.last_ok {items : Items} {a b : α} (read : items.last a = .ok b) : a = b := by
  rcases items with ⟨_ | _ | _ | _ | _⟩ | _ <;> simp_all [Items.last, Ending.last]

lemma Members.last_ok {members : Members} {a b : α} (read : members.last a = .ok b) : a = b := by
  rcases members with ⟨_ | _ | _ | _ | _⟩ | _ <;> simp_all [Members.last, Ending.last]

/-- What comes out of a text has come out of the tree of the text. -/
lemma exists_of_decode {d : Decoder α} {text : List Char} {a : α} (read : decode d text = .ok a) :
    ∃ depth t, d depth t = .ok a := by
  obtain ⟨b, read, rest⟩ := Except.bind_eq_ok_iff.mp read
  refine ⟨_, _, read.trans (congrArg _ ?_)⟩
  split at rest
  · split_ifs at rest
    exact Except.ok.inj rest
  · simp at rest

namespace Decoder

/-! ## Names -/

lemma named_ok {choices : List (String × α)} {name : String} {a : α}
    (read : named choices name = .ok a) : ∃ e ∈ choices, e.2 = a := by
  unfold named at read
  cases found : choices.lookup name with
  | none => rw [found] at read; simp at read
  | some b =>
      rw [found] at read
      obtain rfl : b = a := by simpa using read
      obtain ⟨before, after, rfl, -⟩ := List.lookup_eq_some_iff.mp found
      exact ⟨(name, b), by simp, rfl⟩

/-- A choice is one of those that there are. -/
lemma choice_ok {choices : List (String × α)} {depth : ℕ} {t : Tree} {a : α}
    (read : choice choices depth t = .ok a) : ∃ e ∈ choices, e.2 = a := by
  cases t with
  | string s =>
      obtain ⟨name, -, read⟩ := Except.bind_eq_ok_iff.mp read
      exact named_ok read
  | object members =>
      obtain ⟨inner, -, read⟩ := Except.bind_eq_ok_iff.mp read
      rcases members with ⟨_ | _ | _ | _ | _⟩ | ⟨key, item, rest⟩
      case cons =>
        obtain ⟨name, -, read⟩ := Except.bind_eq_ok_iff.mp read
        obtain ⟨b, chosen, read⟩ := Except.bind_eq_ok_iff.mp read
        obtain ⟨-, -, read⟩ := Except.bind_eq_ok_iff.mp read
        obtain rfl := Members.last_ok read
        exact named_ok chosen
      all_goals simp at read
  | null | bool _ | number _ | array _ | broken _ _ _ => simp [choice] at read

/-! ## Tag and content -/

/-- What has been read so far comes from one of the choices. -/
def Tagged.From (choices : List (String × Decoder α)) : Tagged α → Prop
  | .tag d => ∃ e ∈ choices, e.2 = d
  | .both a => ∃ e ∈ choices, ∃ depth t, e.2 depth t = .ok a
  | .nothing | .content _ => True

/-- The members change what has been read so far, and at the end there is a tag and a content. -/
lemma taggedMembers_ok {k c : String} {choices : List (String × Decoder α)} {depth : ℕ} {a : α} :
    ∀ {members : Members} {s : Tagged α}, s.From choices →
      taggedMembers k c choices depth s members = .ok a →
      ∃ e ∈ choices, ∃ depth t, e.2 depth t = .ok a
  | .done e, s, source, read => by
      cases s with
      | both b => exact Ending.strict_ok read ▸ source
      | nothing | tag _ | content _ =>
          obtain ⟨-, -, read⟩ := Except.bind_eq_ok_iff.mp read
          simp at read
  | .cons key item rest, s, source, read => by
      unfold taggedMembers at read
      obtain ⟨name, -, read⟩ := Except.bind_eq_ok_iff.mp read
      split_ifs at read
      · cases s with
        | nothing =>
            obtain ⟨d, chosen, read⟩ := Except.bind_eq_ok_iff.mp read
            exact taggedMembers_ok (s := .tag d) (choice_ok chosen) read
        | content t =>
            obtain ⟨d, chosen, read⟩ := Except.bind_eq_ok_iff.mp read
            obtain ⟨b, inner, read⟩ := Except.bind_eq_ok_iff.mp read
            obtain ⟨e, member, same⟩ := choice_ok chosen
            exact taggedMembers_ok (s := .both b) ⟨e, member, depth, t, same ▸ inner⟩ read
        | tag _ | both _ => simp at read
      · cases s with
        | nothing =>
            obtain ⟨-, -, read⟩ := Except.bind_eq_ok_iff.mp read
            exact taggedMembers_ok (s := .content item) trivial read
        | tag d =>
            obtain ⟨b, inner, read⟩ := Except.bind_eq_ok_iff.mp read
            obtain ⟨e, member, same⟩ := source
            exact taggedMembers_ok (s := .both b) ⟨e, member, depth, item, same ▸ inner⟩ read
        | content _ | both _ => simp at read
      · obtain ⟨-, -, read⟩ := Except.bind_eq_ok_iff.mp read
        exact taggedMembers_ok source read

/-- **What is read by a tag** has been read by one of the choices. -/
lemma tagged_ok {k c : String} {choices : List (String × Decoder α)} {depth : ℕ} {t : Tree} {a : α}
    (read : tagged k c choices depth t = .ok a) :
    ∃ e ∈ choices, ∃ depth t, e.2 depth t = .ok a := by
  cases t with
  | object members =>
      obtain ⟨inner, -, read⟩ := Except.bind_eq_ok_iff.mp read
      exact taggedMembers_ok (s := .nothing) trivial read
  | array items =>
      obtain ⟨inner, -, read⟩ := Except.bind_eq_ok_iff.mp read
      rcases items with e | ⟨tag, e | ⟨content, rest⟩⟩
      · obtain ⟨-, -, read⟩ := Except.bind_eq_ok_iff.mp read
        simp at read
      · obtain ⟨-, -, read⟩ := Except.bind_eq_ok_iff.mp read
        obtain ⟨-, -, read⟩ := Except.bind_eq_ok_iff.mp read
        simp at read
      · obtain ⟨d, chosen, read⟩ := Except.bind_eq_ok_iff.mp read
        obtain ⟨b, content, read⟩ := Except.bind_eq_ok_iff.mp read
        obtain rfl := Items.last_ok read
        obtain ⟨e, member, rfl⟩ := choice_ok chosen
        exact ⟨e, member, _, _, content⟩
  | null | bool _ | number _ | string _ | broken _ _ _ => simp [tagged] at read

/-! ## Tables -/

lemma tableMembers_ok {d : Tree → Except Fault α} :
    ∀ {members : Members} {entries : List (String × α)}, tableMembers d members = .ok entries →
      ∀ e ∈ entries, ∃ t, d t = .ok e.2
  | .done e, entries, read => by
      obtain rfl := Ending.strict_ok read
      simp
  | .cons key item rest, entries, read => by
      obtain ⟨name, -, read⟩ := Except.bind_eq_ok_iff.mp read
      obtain ⟨a, first, read⟩ := Except.bind_eq_ok_iff.mp read
      obtain ⟨others, later, read⟩ := Except.bind_eq_ok_iff.mp read
      obtain rfl : (name, a) :: others = entries := by simpa [pure, Except.pure] using read
      intro e member
      rcases List.mem_cons.mp member with rfl | member
      · exact ⟨item, first⟩
      · exact tableMembers_ok later e member

/-- **What stands in a table that is read** has been read by the decoder of its values. -/
lemma table_ok {d : Decoder α} {depth : ℕ} {t : Tree} {s : Table α}
    (read : table d depth t = .ok s) {name : String} {a : α} (found : s.find? name = some a) :
    ∃ depth t, d depth t = .ok a := by
  cases t with
  | object members =>
      obtain ⟨inner, -, read⟩ := Except.bind_eq_ok_iff.mp read
      obtain ⟨entries, all, read⟩ := Except.bind_eq_ok_iff.mp read
      obtain rfl : Table.ofList entries = s := by simpa [pure, Except.pure] using read
      rcases Table.find?_of_insertMany found with before | member
      · simp at before
      · obtain ⟨t, value⟩ := tableMembers_ok all (name, a) member
        exact ⟨inner, t, value⟩
  | null | bool _ | number _ | string _ | array _ | broken _ _ _ => simp [table] at read

end Decoder

end Json

/-! ## Counters -/

/-- A counter that is read can be held. -/
lemma Accumulator.inRange_of_decoder {depth : ℕ} {t : Json.Tree} {a : Accumulator}
    (read : decoder depth t = .ok a) : a.InRange := by
  obtain ⟨e, member, depth, t, value⟩ := Json.Decoder.tagged_ok read
  simp only [List.mem_cons, List.not_mem_nil, or_false] at member
  rcases member with rfl | rfl
  · rcases whole : Json.Decoder.integer minLong maxLong depth t with fault | n
    · simp [whole, Except.map] at value
    · obtain rfl : long n = a := by simpa [whole, Except.map] using value
      unfold Json.Decoder.integer at whole
      split at whole
      · split_ifs at whole with bounds
        obtain rfl := Except.ok.inj whole
        rw [Bool.and_eq_true, decide_eq_true_eq, decide_eq_true_eq] at bounds
        exact bounds
      · simp at whole
  · rcases read : Json.Decoder.double depth t with fault | x
    · simp [read, Except.map] at value
    · obtain rfl : double x = a := by simpa [read, Except.map] using value
      trivial

/-- **Counters that are read** can be held. -/
theorem Accumulators.inRange_of_decoder {depth : ℕ} {t : Json.Tree} {s : Accumulators}
    (read : decoder depth t = .ok s) : s.InRange := by
  intro name a found
  obtain ⟨depth, t, value⟩ := Json.Decoder.table_ok read found
  exact Accumulator.inRange_of_decoder value

end ControlPlane
