import Mathlib
import ControlPlane.Health.Kernel
import ControlPlane.Proofs.Registry.Keys
import ControlPlane.Proofs.Text.Words

/-!
# What the figures of the kernel come to

The kernel tells its memory in kilobytes under a name, and the ticks of a process as two fields after the name
of its command.  What a text tells is said here by what the text is put together from, without any reading.
A figure that is answered is exact.  What is made of the figures of a text may not fit in a word of sixty-four
bits although they do; there the program panics.

* `TellsMemory`, `TellsTicks` — what a text tells.
* `kilobytes_spelled_iff` — which texts after a name are read as a number of kilobytes.
* **`figures_exact`** — what comes of any text: the figures that are told, nothing where nothing is told that
  fits in a word, and a panic exactly where words are told whose product or sum does not fit.
-/

namespace ControlPlane.Kernel

/-! ## Telling -/

/-- **A line under a name**: the first line of the text that begins with the name goes on with `rest`. -/
def Named (name : String) (text rest : List Char) : Prop :=
  ∃ before after, lines text = before ++ (name.toList ++ rest) :: after
    ∧ ∀ line ∈ before, ¬name.toList <+: line

/-- A number of kilobytes between blanks.  The unit may stand after it, however often. -/
def Kilobytes (rest : List Char) (n : ℕ) : Prop :=
  ∃ left count middle units right,
    rest = left ++ (count ++ middle ++ (List.replicate units ['k', 'B']).flatten) ++ right
    ∧ Blank left ∧ Decimal.Spells count n ∧ Blank middle ∧ Blank right

/-- A text tells a number of kilobytes under a name. -/
def TellsKilobytes (name : String) (text : List Char) (n : ℕ) : Prop :=
  ∃ rest, Named name text rest ∧ Kilobytes rest n

/-- **A text tells the memory**: there are `total` kilobytes, of which `available` are available. -/
def TellsMemory (text : List Char) (total available : ℕ) : Prop :=
  TellsKilobytes "MemTotal:" text total ∧ TellsKilobytes "MemAvailable:" text available

/-- **A text tells the ticks**: they are the twelfth and the thirteenth field after the last closing
parenthesis, whatever stands before it. -/
def TellsTicks (text : List Char) (user system : ℕ) : Prop :=
  ∃ command rest fields u s more, text = command ++ ')' :: rest ∧ ')' ∉ rest
    ∧ Worded rest (fields ++ u :: s :: more) ∧ fields.length = 11
    ∧ Decimal.Spells u user ∧ Decimal.Spells s system

/-! ## Words of sixty-four bits -/

lemma word?_eq_some_iff {s : List Char} {w : UInt64} :
    word? s = some w ↔ Decimal.Spells s w.toNat := by
  unfold word?
  rw [Option.map_eq_some_iff]
  constructor
  · rintro ⟨n, read, rfl⟩
    obtain ⟨spells, small⟩ := Decimal.count?_eq_some_iff.mp read
    rwa [UInt64.toNat_ofNat_of_lt' small]
  · intro spells
    exact ⟨w.toNat, Decimal.count?_eq_some_iff.mpr ⟨spells, w.toNat_lt⟩, UInt64.ofNat_toNat⟩

lemma fit_of_lt {n : ℕ} (small : n < 2 ^ 64) : fit n = .ok (UInt64.ofNat n) := if_pos small

lemma fit_of_le {n : ℕ} (large : 2 ^ 64 ≤ n) : fit n = .error .overflow := if_neg (Nat.not_lt.mpr large)

namespace Told

variable {α β : Type}

@[simp] lemma ofOption_none_bind (f : α → Told β) : (ofOption none >>= f) = ofOption none := rfl

@[simp] lemma ofOption_some_bind (a : α) (f : α → Told β) : (ofOption (some a) >>= f) = f a := rfl

@[simp] lemma ofChecked_ok_bind (a : α) (f : α → Told β) : (ofChecked (.ok a) >>= f) = f a := rfl

@[simp] lemma ofChecked_error_bind (f : α → Told β) :
    (ofChecked (.error .overflow) >>= f) = ofChecked (.error .overflow) := rfl

@[simp] lemma run_ofOption (read : Option α) : (ofOption read).run = .ok read := rfl

@[simp] lemma run_ofChecked (result : Except Overflow α) : (ofChecked result).run = result.map some := rfl

@[simp] lemma run_pure (a : α) : (pure a : Told α).run = .ok (some a) := rfl

end Told

/-! ## Kilobytes -/

lemma dropKilobytes_units (s : List Char) (units : ℕ) (other : s.getLast? ≠ some 'B') :
    dropKilobytes (s ++ (List.replicate units ['k', 'B']).flatten) = s := by
  unfold dropKilobytes
  rw [List.reverse_append]
  induction units with
  | zero =>
      rw [List.replicate_zero, List.flatten_nil, List.reverse_nil, List.nil_append]
      have stays : dropKilobytes.dropBk s.reverse = s.reverse := by
        rw [← List.head?_reverse] at other
        rw [dropKilobytes.dropBk]
        intro rest same
        rw [same] at other
        exact other rfl
      rw [stays, List.reverse_reverse]
  | succ units ih =>
      rw [List.replicate_succ', List.flatten_append, List.reverse_append]
      exact ih

lemma exists_dropKilobytes (s : List Char) :
    ∃ units, s = dropKilobytes s ++ (List.replicate units ['k', 'B']).flatten := by
  have backwards : ∀ r : List Char, ∃ units,
      r.reverse = (dropKilobytes.dropBk r).reverse ++ (List.replicate units ['k', 'B']).flatten := by
    intro r
    induction r using dropKilobytes.dropBk.induct with
    | case1 rest ih =>
        obtain ⟨units, same⟩ := ih
        refine ⟨units + 1, ?_⟩
        rw [List.replicate_succ', List.flatten_append, ← List.append_assoc, dropKilobytes.dropBk, ← same]
        simp
    | case2 r other =>
        refine ⟨0, ?_⟩
        rw [dropKilobytes.dropBk]
        · simp
        · exact other
  simpa [dropKilobytes] using backwards s.reverse

/-- **The texts after a name that are read as a number of kilobytes.** -/
lemma kilobytes_spelled_iff {rest : List Char} {n : ℕ} :
    Decimal.Spells (trimBlank (dropKilobytes (trimBlank rest))) n ↔ Kilobytes rest n := by
  constructor
  · intro spells
    obtain ⟨left, right, left_blank, -, right_blank, outside⟩ := exists_trimBlank rest
    obtain ⟨units, marks⟩ := exists_dropKilobytes (trimBlank rest)
    obtain ⟨inner, middle, inner_blank, -, middle_blank, inside⟩ :=
      exists_trimBlank (dropKilobytes (trimBlank rest))
    refine ⟨left ++ inner, _, middle, units, right, ?_, ?_, spells, middle_blank, right_blank⟩
    · rw [marks, inside] at outside
      simpa using outside
    · exact fun c member => (List.mem_append.mp member).elim (left_blank c) (inner_blank c)
  · rintro ⟨left, count, middle, units, right, rfl, left_blank, spells, middle_blank, right_blank⟩
    obtain ⟨ne_nil, solid, last⟩ := spells.solid
    have count_trimmed : Trimmed count :=
      ⟨fun c member => solid c (List.mem_of_head? member), fun c member => solid c (List.mem_of_getLast? member)⟩
    cases units with
    | zero =>
        -- without a unit, the blanks behind the number are all at the end
        have behind : Blank (middle ++ right) :=
          fun c member => (List.mem_append.mp member).elim (middle_blank c) (right_blank c)
        have outer := trimBlank_append left_blank count_trimmed behind
        have no_unit := dropKilobytes_units count 0 fun same => absurd (last 'B' same) (by decide)
        have inner := trimBlank_append blank_nil count_trimmed blank_nil
        simp only [List.replicate_zero, List.flatten_nil, List.append_nil, List.append_assoc, List.nil_append] at *
        rwa [outer, no_unit, inner]
    | succ units =>
        have marked : Trimmed (count ++ middle ++ (List.replicate (units + 1) ['k', 'B']).flatten) := by
          refine ⟨fun c member => ?_, fun c member => ?_⟩
          · rw [List.append_assoc, List.head?_append_of_ne_nil _ ne_nil] at member
            exact count_trimmed.1 c member
          · rw [List.replicate_succ', List.flatten_append, ← List.append_assoc,
              List.getLast?_append_of_ne_nil _ (by simp)] at member
            obtain rfl : 'B' = c := by simpa using member
            rfl
        have other : (count ++ middle).getLast? ≠ some 'B' := by
          intro same
          rcases List.eq_nil_or_concat middle with rfl | ⟨gap, c, rfl⟩
          · rw [List.append_nil] at same
            exact absurd (last 'B' same) (by decide)
          · obtain rfl : c = 'B' := by simpa [List.concat_eq_append, ← List.append_assoc] using same
            exact absurd (middle_blank 'B' (by simp)) (by decide)
        have inner := trimBlank_append blank_nil count_trimmed middle_blank
        rw [List.nil_append] at inner
        rwa [trimBlank_append left_blank marked right_blank, dropKilobytes_units _ _ other, inner]

/-! ## Lines -/

lemma dropStart?_eq_some_iff {start s rest : List Char} : dropStart? start s = some rest ↔ s = start ++ rest := by
  unfold dropStart?
  constructor
  · intro cut
    split_ifs at cut with begins
    obtain ⟨rest, rfl⟩ := List.isPrefixOf_iff_prefix.mp begins
    rw [List.drop_left, Option.some_inj] at cut
    rw [cut]
  · rintro rfl
    simp

lemma dropStart?_eq_none_iff {start s : List Char} : dropStart? start s = none ↔ ¬start <+: s := by
  simp [dropStart?]

/-- The line under a name is the one that is found. -/
lemma afterName?_eq_some_iff {name : String} {text rest : List Char} :
    afterName? name text = some rest ↔ Named name text rest := by
  simp only [afterName?, List.findSome?_eq_some_iff, dropStart?_eq_some_iff, dropStart?_eq_none_iff, Named]
  constructor
  · rintro ⟨before, _, after, cut, rfl, earlier⟩
    exact ⟨before, after, cut, earlier⟩
  · rintro ⟨before, after, cut, earlier⟩
    exact ⟨before, _, after, cut, rfl, earlier⟩

/-- **What is made of a number of kilobytes**: nothing comes of a text that tells none, or only one that is too
large for a word; the number of bytes is made of one that is a word. -/
lemma kilobytes?_cases (name : String) (text : List Char) :
    (kilobytes? name text = .ofOption none ∧ ∀ n, TellsKilobytes name text n → 2 ^ 64 ≤ n)
    ∨ ∃ n < 2 ^ 64, TellsKilobytes name text n ∧ kilobytes? name text = .ofChecked (fit (n * 1024)) := by
  cases line : afterName? name text with
  | none =>
      refine .inl ⟨by simp [kilobytes?, line], fun n ⟨rest, named, _⟩ => ?_⟩
      rw [afterName?_eq_some_iff.mpr named] at line
      contradiction
  | some rest =>
      cases read : word? (trimBlank (dropKilobytes (trimBlank rest))) with
      | none =>
          refine .inl ⟨by simp [kilobytes?, line, read], fun n ⟨other, named, told⟩ => ?_⟩
          obtain rfl : rest = other := Option.some.inj (line.symm.trans (afterName?_eq_some_iff.mpr named))
          by_contra small
          have spelled : word? (trimBlank (dropKilobytes (trimBlank rest))) = some (UInt64.ofNat n) := by
            rw [word?_eq_some_iff, UInt64.toNat_ofNat_of_lt' (Nat.not_le.mp small)]
            exact kilobytes_spelled_iff.mpr told
          rw [read] at spelled
          contradiction
      | some w =>
          have told := kilobytes_spelled_iff.mp (word?_eq_some_iff.mp read)
          exact .inr ⟨w.toNat, w.toNat_lt, ⟨rest, afterName?_eq_some_iff.mp line, told⟩,
            by simp [kilobytes?, line, read]⟩

/-! ## Ticks -/

/-- Two elements that follow one another, at their place in a list. -/
lemma getElem?_next_iff {α : Type} {xs : List α} {i : ℕ} {a b : α} :
    xs[i]? = some a ∧ xs[i + 1]? = some b ↔
      ∃ before after, xs = before ++ a :: b :: after ∧ before.length = i := by
  constructor
  · rintro ⟨here, next⟩
    obtain ⟨_, rfl⟩ := List.getElem?_eq_some_iff.mp here
    obtain ⟨_, rfl⟩ := List.getElem?_eq_some_iff.mp next
    refine ⟨xs.take i, xs.drop (i + 2), ?_, by rw [List.length_take]; omega⟩
    rw [← List.drop_eq_getElem_cons, ← List.drop_eq_getElem_cons, List.take_append_drop]
  · rintro ⟨before, after, rfl, rfl⟩
    simp

/-- The two fields that are read are the ticks that a text tells. -/
lemma fields_eq_some_iff {text : List Char} {user system : UInt64} :
    (∃ command rest, splitLast ')' text = some (command, rest)
      ∧ (words rest)[11]?.bind word? = some user ∧ (words rest)[12]?.bind word? = some system) ↔
      TellsTicks text user.toNat system.toNat := by
  simp only [Option.bind_eq_some_iff, word?_eq_some_iff]
  constructor
  · rintro ⟨command, rest, cut, ⟨u, twelfth, u_spelled⟩, s, thirteenth, s_spelled⟩
    obtain ⟨split, last⟩ := splitLast_eq_some_iff.mp cut
    obtain ⟨fields, more, made, count⟩ := getElem?_next_iff.mp ⟨twelfth, thirteenth⟩
    exact ⟨command, rest, fields, u, s, more, split, last, words_eq_iff.mp made, count, u_spelled, s_spelled⟩
  · rintro ⟨command, rest, fields, u, s, more, split, last, made, count, u_spelled, s_spelled⟩
    obtain ⟨twelfth, thirteenth⟩ := getElem?_next_iff.mpr ⟨fields, more, made.words_eq, count⟩
    exact ⟨command, rest, splitLast_eq_some_iff.mpr ⟨split, last⟩, ⟨u, twelfth, u_spelled⟩, s, thirteenth, s_spelled⟩

/-- **What is made of the ticks**, in the same way. -/
lemma ticksOf?_cases (text : List Char) :
    (ticksOf? text = .ofOption none ∧ ∀ user system, TellsTicks text user system → 2 ^ 64 ≤ user ∨ 2 ^ 64 ≤ system)
    ∨ ∃ user < 2 ^ 64, ∃ system < 2 ^ 64, TellsTicks text user system
      ∧ ticksOf? text = .ofChecked (fit (user + system)) := by
  by_cases told : ∃ user system : UInt64, TellsTicks text user.toNat system.toNat
  · obtain ⟨user, system, told⟩ := told
    obtain ⟨command, rest, cut, twelfth, thirteenth⟩ := fields_eq_some_iff.mpr told
    exact .inr ⟨user.toNat, user.toNat_lt, system.toNat, system.toNat_lt, told,
      by simp [ticksOf?, cut, twelfth, thirteenth]⟩
  · refine .inl ⟨?_, fun user system ticks => ?_⟩
    · -- a text that gave both fields would tell them
      cases cut : splitLast ')' text with
      | none => simp [ticksOf?, cut]
      | some parts =>
          cases twelfth : (words parts.2)[11]?.bind word? with
          | none => simp [ticksOf?, cut, twelfth]
          | some user =>
              cases thirteenth : (words parts.2)[12]?.bind word? with
              | none => simp [ticksOf?, cut, twelfth, thirteenth]
              | some system =>
                  exact absurd ⟨user, system, fields_eq_some_iff.mp ⟨parts.1, parts.2, cut, twelfth, thirteenth⟩⟩ told
    · by_contra small
      have fits : user < 2 ^ 64 ∧ system < 2 ^ 64 := by omega
      refine told ⟨UInt64.ofNat user, UInt64.ofNat system, ?_⟩
      rwa [UInt64.toNat_ofNat_of_lt' fits.1, UInt64.toNat_ofNat_of_lt' fits.2]

/-! ## What is answered -/

/-- **What comes of any text.** -/
theorem figures_exact (text : List Char) :
    (match (memoryOf? text).run with
      | .ok none => ∀ total available, TellsMemory text total available →
          2 ^ 64 ≤ total ∨ 2 ^ 64 ≤ available
      | .ok (some answer) => ∃ total available, TellsMemory text total available
          ∧ answer.1.toNat = total * 1024 ∧ answer.2.toNat = available * 1024
      | .error .overflow => ∃ total < 2 ^ 64, TellsKilobytes "MemTotal:" text total
          ∧ (2 ^ 64 ≤ total * 1024
            ∨ ∃ available < 2 ^ 64, TellsKilobytes "MemAvailable:" text available ∧ 2 ^ 64 ≤ available * 1024))
    ∧ match (ticksOf? text).run with
      | .ok none => ∀ user system, TellsTicks text user system → 2 ^ 64 ≤ user ∨ 2 ^ 64 ≤ system
      | .ok (some ticks) => ∃ user system, TellsTicks text user system ∧ ticks.toNat = user + system
      | .error .overflow => ∃ user < 2 ^ 64, ∃ system < 2 ^ 64, TellsTicks text user system
          ∧ 2 ^ 64 ≤ user + system := by
  constructor
  · rcases kilobytes?_cases "MemTotal:" text with ⟨none_read, large⟩ | ⟨total, small, told, made⟩
    · simp only [memoryOf?, none_read, Told.ofOption_none_bind, Told.run_ofOption]
      exact fun total available memory => .inl (large total memory.1)
    · rcases Nat.lt_or_ge (total * 1024) (2 ^ 64) with total_fits | total_large
      · rw [memoryOf?, made, fit_of_lt total_fits, Told.ofChecked_ok_bind]
        rcases kilobytes?_cases "MemAvailable:" text with
          ⟨none_read, large⟩ | ⟨available, available_small, free, free_made⟩
        · rw [none_read, Told.ofOption_none_bind, Told.run_ofOption]
          exact fun total available memory => .inr (large available memory.2)
        · rcases Nat.lt_or_ge (available * 1024) (2 ^ 64) with fits | large
          · rw [free_made, fit_of_lt fits, Told.ofChecked_ok_bind, Told.run_pure]
            exact ⟨total, available, ⟨told, free⟩, UInt64.toNat_ofNat_of_lt' total_fits,
              UInt64.toNat_ofNat_of_lt' fits⟩
          · rw [free_made, fit_of_le large, Told.ofChecked_error_bind, Told.run_ofChecked]
            exact ⟨total, small, told, .inr ⟨available, available_small, free, large⟩⟩
      · rw [memoryOf?, made, fit_of_le total_large, Told.ofChecked_error_bind, Told.run_ofChecked]
        exact ⟨total, small, told, .inl total_large⟩
  · rcases ticksOf?_cases text with ⟨none_read, large⟩ | ⟨user, user_small, system, system_small, told, made⟩
    · simpa [none_read] using large
    · rcases Nat.lt_or_ge (user + system) (2 ^ 64) with small | large
      · rw [made, fit_of_lt small]
        exact ⟨user, system, told, UInt64.toNat_ofNat_of_lt' small⟩
      · rw [made, fit_of_le large]
        exact ⟨user, user_small, system, system_small, told, large⟩

/-- A text that tells the smallest number of kilobytes whose bytes are too many for a word, and a single one. -/
def fullMemory : List Char := "MemTotal: 18014398509481984 kB\nMemAvailable: 1 kB\n".toList

/-- A memory that is one byte larger than words reach makes the program panic. -/
theorem full_memory_panics :
    TellsMemory fullMemory (2 ^ 54) 1 ∧ (memoryOf? fullMemory).run = .error .overflow := by
  have spelled : ∀ {rest : List Char} {n : ℕ},
      Decimal.count? (2 ^ 64) (trimBlank (dropKilobytes (trimBlank rest))) = some n → Kilobytes rest n :=
    fun read => kilobytes_spelled_iff.mp (Decimal.count?_eq_some_iff.mp read).1
  refine ⟨⟨⟨" 18014398509481984 kB".toList, ?_, ?_⟩, " 1 kB".toList, ?_, ?_⟩, by decide +kernel⟩
  · exact afterName?_eq_some_iff.mp (by decide +kernel)
  · exact spelled (by decide +kernel)
  · exact afterName?_eq_some_iff.mp (by decide +kernel)
  · exact spelled (by decide +kernel)

end ControlPlane.Kernel
