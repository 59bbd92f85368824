import Mathlib
import ControlPlane.Proofs.Json.Text

/-!
# The text of a double is cut off as it was written

The text of a finite double has a whole part without idle zeros, and perhaps a fraction and an
exponent; so the reader cuts it off whole, whatever comes after it.  Which double it then makes of the
text is another question: reading has two roundings, and some doubles come back changed.

* `NumberText.spell`, `NumberText.Proper` — the text for the parts of a number, and when it is one.
* `readNumberText_spell` — the reader finds these parts again.
* `shortest_digits` — the digits of the shortest decimal; the first of them is zero only when it is
  the only one, because no interval of a double other than zero contains zero.
* `Double.exists_spell` — the text of a finite double has such parts.
* `Number.stands_double` — so a finite double takes part in what is known about compact texts.
-/

namespace ControlPlane

namespace Json

/-! ## The parts of a number in its text -/

/-- What comes next is no digit. -/
def Stops : List Char → Prop
  | [] => True
  | c :: _ => Decimal.isDigit c = false

lemma Clear.stops {rest : List Char} (clear : Clear rest) : Stops rest := by
  cases rest with
  | nil => trivial
  | cons c cs => exact clear.1

lemma takeDigits_of_stops {digits rest : List Char} (all : ∀ c ∈ digits, Decimal.isDigit c = true)
    (stops : Stops rest) : takeDigits (digits ++ rest) = (digits, rest) := by
  have ends : rest.takeWhile Decimal.isDigit = [] ∧ rest.dropWhile Decimal.isDigit = rest := by
    cases rest with
    | nil => simp
    | cons c cs => simp [show Decimal.isDigit c = false from stops]
  rw [takeDigits, List.takeWhile_append_of_pos all, List.dropWhile_append_of_pos all, ends.1, ends.2,
    List.append_nil]

namespace NumberText

/-- A fraction with the point before it. -/
def fractionChars : Option (List Char) → List Char
  | none => []
  | some digits => '.' :: digits

/-- An exponent with its letter and its sign. -/
def exponentChars : Option (Bool × List Char) → List Char
  | none => []
  | some (down, digits) => 'e' :: (if down then '-' else '+') :: digits

/-- The text of a number without its sign. -/
def body (t : NumberText) : List Char :=
  t.whole ++ (fractionChars t.fraction ++ exponentChars t.exponent)

/-- The text of a number, from its parts. -/
def spell (t : NumberText) : List Char :=
  if t.negative then '-' :: t.body else t.body

/-- A run of digits. -/
def AreDigits (digits : List Char) : Prop :=
  digits ≠ [] ∧ ∀ c ∈ digits, Decimal.isDigit c = true

/-- **Parts of which a text can be made**: runs of digits, the first of which has no idle zero. -/
structure Proper (t : NumberText) : Prop where
  whole : AreDigits t.whole
  tight : ∀ c cs, t.whole ≠ '0' :: c :: cs
  fraction : ∀ digits, t.fraction = some digits → AreDigits digits
  exponent : ∀ down digits, t.exponent = some (down, digits) → AreDigits digits

variable {t : NumberText} {rest : List Char}

lemma stops_exponentChars (e : Option (Bool × List Char)) (clear : Clear rest) :
    Stops (exponentChars e ++ rest) := by
  rcases e with _ | ⟨down, digits⟩
  · exact clear.stops
  · show Decimal.isDigit 'e' = false
    decide

lemma stops_fractionChars (f : Option (List Char)) (e : Option (Bool × List Char))
    (clear : Clear rest) : Stops (fractionChars f ++ (exponentChars e ++ rest)) := by
  rcases f with _ | digits
  · exact stops_exponentChars e clear
  · show Decimal.isDigit '.' = false
    decide

lemma readWhole_append {digits : List Char} (all : AreDigits digits)
    (tight : ∀ c cs, digits ≠ '0' :: c :: cs) (stops : Stops rest) :
    readWhole (digits ++ rest) = .ok (digits, rest) := by
  rw [readWhole, takeDigits_of_stops all.2 stops]
  split
  next h => exact absurd (Prod.ext_iff.mp h).1 all.1
  next h => exact absurd (Prod.ext_iff.mp h).1 (tight _ _)
  next h =>
    obtain ⟨rfl, rfl⟩ := Prod.mk.inj h
    rfl

lemma readFraction_append {f : Option (List Char)} {e : Option (Bool × List Char)}
    (all : ∀ digits, f = some digits → AreDigits digits) (clear : Clear rest) :
    readFraction (fractionChars f ++ (exponentChars e ++ rest)) = .ok (f, exponentChars e ++ rest) := by
  rcases f with _ | digits
  · rcases e with _ | ⟨down, digits⟩
    · exact readFraction_clear clear
    · rfl
  · have proper := all digits rfl
    simp only [fractionChars, List.cons_append, readFraction,
      takeDigits_of_stops proper.2 (stops_exponentChars e clear)]
    split
    next h => exact absurd (Prod.ext_iff.mp h).1 proper.1
    next h =>
      obtain ⟨rfl, rfl⟩ := Prod.mk.inj h
      rfl

lemma readExponent_append {e : Option (Bool × List Char)}
    (all : ∀ down digits, e = some (down, digits) → AreDigits digits) (clear : Clear rest) :
    readExponent (exponentChars e ++ rest) = .ok (e, rest) := by
  rcases e with _ | ⟨down, digits⟩
  · exact readExponent_clear clear
  · have proper := all down digits rfl
    have taken := takeDigits_of_stops proper.2 clear.stops
    obtain ⟨c, cs, rfl⟩ := List.exists_cons_of_ne_nil proper.1
    cases down
    · show readExponent ('e' :: '+' :: (c :: cs ++ rest)) = _
      simp only [readExponent, taken]
      rfl
    · show readExponent ('e' :: '-' :: (c :: cs ++ rest)) = _
      simp only [readExponent, taken]
      rfl

/-- The first character of the text of a number. -/
lemma Proper.begins (h : t.Proper) :
    ∃ c cs, t.spell = c :: cs ∧ (c = '-' ∨ Decimal.isDigit c = true) := by
  obtain ⟨c, cs, eq⟩ := List.exists_cons_of_ne_nil h.whole.1
  have digit := h.whole.2 c (by simp [eq])
  unfold spell body
  rw [eq]
  split_ifs
  · exact ⟨'-', _, rfl, .inl rfl⟩
  · exact ⟨c, _, rfl, .inr digit⟩

/-- **The parts of a number** are found again in its text. -/
theorem readNumberText_spell (h : t.Proper) (clear : Clear rest) :
    readNumberText (t.spell ++ rest) = .ok (t, rest) := by
  have whole := readWhole_append h.whole h.tight (stops_fractionChars t.fraction t.exponent clear)
  have fraction := readFraction_append (e := t.exponent) h.fraction clear
  have exponent := readExponent_append h.exponent clear
  have text : t.body ++ rest = t.whole ++ (fractionChars t.fraction
      ++ (exponentChars t.exponent ++ rest)) := by
    simp only [body, List.append_assoc]
  rw [← text] at whole
  by_cases sign : t.negative = true
  · rw [spell, if_pos sign, List.cons_append, readNumberText]
    simp only [whole, fraction, exponent, bind, Except.bind, pure, Except.pure]
    rw [← sign]
  · have unsigned : ∀ r, t.body ++ rest ≠ '-' :: r := by
      intro r same
      obtain ⟨c, cs, eq⟩ := List.exists_cons_of_ne_nil h.whole.1
      have digit := h.whole.2 c (by simp [eq])
      rw [text, eq] at same
      rw [(List.cons.inj same).1] at digit
      exact absurd digit (by decide)
    rw [spell, if_neg sign, readNumberText]
    · simp only [whole, fraction, exponent, bind, Except.bind, pure, Except.pure]
      rw [← Bool.eq_false_iff.mpr sign]
    · exact unsigned

end NumberText

/-- **A number whose text has proper parts** is cut off as it was written. -/
lemma scan_spell {t : NumberText} (h : t.Proper) (steps : ℕ) {rest : List Char}
    (clear : Clear rest) :
    scan (steps + 1) (t.spell ++ rest) = (.number t.value, some rest) := by
  obtain ⟨c, cs, eq, first⟩ := h.begins
  obtain ⟨gap, -, quote, brace, bracket, n, t', f⟩ := ne_of_begins first
  have sign : (c = '-' || Decimal.isDigit c) = true := by simpa using first
  have number := NumberText.readNumberText_spell h clear
  rw [eq, List.cons_append] at number ⊢
  rw [scan, skipGap_cons _ gap]
  simp only [quote, brace, bracket, n, t', f, if_false, sign, if_true, scanNumber, number]

lemma Number.tree_of_spell {n : Number} {t : NumberText} (h : t.Proper) (text : n.chars = t.spell) :
    n.tree = .number t.value := by
  have scanned := scan_spell h (4 * t.spell.length + 3) (show Clear [] from trivial)
  rw [List.append_nil] at scanned
  rw [Number.tree, text, Tree.ofText, scanned]

lemma Number.stands_of_spell {n : Number} {t : NumberText} (h : t.Proper)
    (text : n.chars = t.spell) : n.Stands where
  begins := by
    obtain ⟨c, cs, eq, first⟩ := h.begins
    obtain ⟨gap, bracket, -⟩ := ne_of_begins first
    exact ⟨c, cs, text.trans eq, gap, bracket⟩
  scan_eq := by
    intro steps rest clear
    rw [Number.tree_of_spell h text, text]
    exact scan_spell h steps clear

end Json

/-! ## The shortest decimal -/

namespace Decimal

/-- Only zero begins with a zero. -/
lemma ofNat_ne_zero_cons {n : ℕ} (pos : 0 < n) (cs : List Char) : ofNat n ≠ '0' :: cs := by
  intro same
  have alone := ofNat_eq_zero_cons same
  have value := toNat_ofNat n
  rw [same, alone] at value
  have zero : toNat ['0'] = 0 := rfl
  omega

end Decimal

namespace Shortest

/-- The interval of a double other than zero begins above zero. -/
lemma interval_low_pos {magnitude : ℕ} (pos : 0 < magnitude) : 0 < (interval magnitude).low := by
  have split := Nat.div_add_mod magnitude Double.fractions
  have units : 0 < if magnitude / Double.fractions = 0 then magnitude % Double.fractions
      else Double.fractions + magnitude % Double.fractions := by
    split_ifs with small
    · rw [small] at split
      omega
    · exact Nat.add_pos_left (by decide) _
  have step : 0 < Nat.pow 2 (magnitude / Double.fractions - 1) := Nat.pow_pos (by decide)
  refine Nat.mul_pos ?_ step
  split_ifs <;> split_ifs at units <;> omega

lemma low_le_high (magnitude : ℕ) : (interval magnitude).low ≤ (interval magnitude).high := by
  refine Nat.mul_le_mul_right _ ?_
  omega

/-- **Zero lies in no interval** of a double other than zero. -/
lemma not_hits_zero {magnitude : ℕ} (pos : 0 < magnitude) (g : Grid) :
    g.hits (interval magnitude) 0 = false := by
  have factor : 0 < g.quarterFactor := Nat.pow_pos (by decide)
  have low : 0 < (interval magnitude).low * g.quarterFactor :=
    Nat.mul_pos (interval_low_pos pos) factor
  have high : 0 < (interval magnitude).high * g.quarterFactor :=
    lt_of_lt_of_le low (Nat.mul_le_mul_right _ (low_le_high magnitude))
  simp [Grid.hits, low.ne, high.ne]

/-- The best point of a grid lies in the interval. -/
lemma best?_hits {g : Grid} {i : Interval} {point : ℕ} (found : g.best? i = some point) :
    g.hits i point = true := by
  unfold Grid.best? at found
  generalize g.hits i = hits at found ⊢
  generalize i.mid * g.quarterFactor / g.stepFactor = below at found
  simp only at found
  split_ifs at found with low high near high <;> obtain rfl := Option.some.inj found
  · exact low
  · exact high
  · exact low
  · exact high

lemma best?_pos {magnitude : ℕ} (pos : 0 < magnitude) {g : Grid} {point : ℕ}
    (found : g.best? (interval magnitude) = some point) : 0 < point := by
  have hits := best?_hits found
  rcases Nat.eq_zero_or_pos point with rfl | positive
  · rw [not_hits_zero pos] at hits
    exact absurd hits (by decide)
  · exact positive

lemma search_pos {magnitude : ℕ} (pos : 0 < magnitude) {fuel : ℕ} {exponent found : ℤ} {point : ℕ}
    (searched : search (interval magnitude) fuel exponent = some (point, found)) : 0 < point := by
  induction fuel generalizing exponent with
  | zero => simp [search] at searched
  | succ fuel ih =>
      rw [search, ← Option.orElse_eq_orElse, Option.orElse_eq_some] at searched
      rcases searched with best | ⟨-, later⟩
      · obtain ⟨taken, here, same⟩ := Option.map_eq_some_iff.mp best
        have taken_pos : 0 < taken := best?_pos pos here
        rwa [(Prod.mk.inj same).1] at taken_pos
      · exact ih later

lemma stripZeros_pos {n : ℕ} (pos : 0 < n) (fuel : ℕ) (e : ℤ) : 0 < (stripZeros fuel n e).1 := by
  induction fuel generalizing n e with
  | zero => exact pos
  | succ fuel ih =>
      rw [stripZeros]
      split_ifs with last
      · refine ih (Nat.div_pos ?_ (by decide)) _
        simp only [Bool.and_eq_true, decide_eq_true_eq] at last
        exact Nat.le_of_dvd pos (Nat.dvd_of_mod_eq_zero last.2)
      · exact pos

end Shortest

/-- **The digits of the shortest decimal**: a lone zero stands for one, and otherwise the first digit
is none. -/
lemma shortest_digits {magnitude : ℕ} (pos : 0 < magnitude) :
    Json.NumberText.AreDigits (shortest magnitude).1 ∧
      ∀ cs, (shortest magnitude).1 = '0' :: cs → (shortest magnitude).2 = 0 := by
  have hit : ∀ {lead : ℤ} {point : ℕ} {exponent : ℤ},
      Shortest.search (Shortest.interval magnitude) 18 lead = some (point, exponent) → 0 < point :=
    fun searched => Shortest.search_pos pos searched
  rw [shortest]
  generalize Shortest.leading (Shortest.interval magnitude).mid 640 309 = lead
  generalize searched : Shortest.search (Shortest.interval magnitude) 18 lead = found
  rcases found with _ | ⟨point, exponent⟩
  · refine ⟨⟨by simp [Shortest.decimalOf], ?_⟩, fun _ _ => rfl⟩
    simp only [Shortest.decimalOf, List.mem_singleton, forall_eq]
    decide
  · have stripped := Shortest.stripZeros_pos (hit searched) 20 exponent
    refine ⟨⟨Decimal.ofNat_ne_nil _, Decimal.isDigit_of_mem_ofNat _⟩, fun cs same => ?_⟩
    exact absurd same (Decimal.ofNat_ne_zero_cons stripped cs)

/-! ## The text of a double -/

namespace Double

open Json (NumberText)
open Json.NumberText (AreDigits)

lemma areDigits_replicate_append {digits : List Char} (all : AreDigits digits) (n : ℕ) :
    AreDigits (List.replicate n '0' ++ digits) := by
  refine ⟨by simp [all.1], fun c member => ?_⟩
  rcases List.mem_append.mp member with zero | digit
  · rw [List.eq_of_mem_replicate zero]
    decide
  · exact all.2 c digit

/-- The parts of a text with a point and without an exponent. -/
lemma positional_spell {digits : List Char} (all : AreDigits digits) {whole : ℤ}
    (tight : ∀ cs, digits = '0' :: cs → whole ≤ 1) (negative : Bool) :
    ∃ t : NumberText, t.Proper ∧ t.negative = negative ∧ t.body = positional digits whole := by
  unfold positional
  split_ifs with small
  · refine ⟨⟨negative, ['0'], some (List.replicate (-whole).toNat '0' ++ digits), none⟩, ?_, rfl, ?_⟩
    · refine ⟨⟨by simp, by simp; decide⟩, by simp, ?_, by simp⟩
      rintro _ ⟨⟩
      exact areDigits_replicate_append all _
    · simp [NumberText.body, NumberText.fractionChars, NumberText.exponentChars]
  · obtain ⟨first, more, rfl⟩ := List.exists_cons_of_ne_nil all.1
    obtain ⟨w, width⟩ : ∃ w, whole.toNat = w + 1 := ⟨whole.toNat - 1, by omega⟩
    refine ⟨⟨negative, (first :: more).take (w + 1)
        ++ List.replicate (w + 1 - (first :: more).length) '0',
      some (if ((first :: more).drop (w + 1)).isEmpty then ['0'] else (first :: more).drop (w + 1)),
      none⟩, ⟨⟨by simp, ?_⟩, ?_, ?_, by simp⟩, rfl, ?_⟩
    · intro c member
      rcases List.mem_append.mp member with digit | zero
      · exact all.2 c (List.mem_of_mem_take digit)
      · rw [List.eq_of_mem_replicate zero]
        decide
    · -- A zero comes first only before the point, and then it stands there alone.
      intro c cs same
      rw [List.take_succ_cons, List.cons_append] at same
      have short := tight more (by rw [(List.cons.inj same).1])
      obtain rfl : w = 0 := by omega
      simp at same
    · rintro _ ⟨⟩
      split_ifs with ends
      · exact ⟨by simp, by simp; decide⟩
      · exact ⟨by simpa using ends, fun c member => all.2 c (List.mem_of_mem_drop member)⟩
    · simp only [NumberText.body, NumberText.fractionChars, NumberText.exponentChars, width,
        List.append_nil]

/-- The parts of a text with an exponent. -/
lemma scientific_spell {digits : List Char} (all : AreDigits digits) (exponent : ℤ)
    (negative : Bool) :
    ∃ t : NumberText, t.Proper ∧ t.negative = negative ∧ t.body = scientific digits exponent := by
  have places : AreDigits (Decimal.ofNat exponent.natAbs) :=
    ⟨Decimal.ofNat_ne_nil _, Decimal.isDigit_of_mem_ofNat _⟩
  have single : ∀ d ∈ digits, AreDigits [d] := fun d member => ⟨by simp, by simpa using all.2 d member⟩
  match digits, all with
  | [d], all =>
    refine ⟨⟨negative, [d], none, some (decide (exponent < 0), Decimal.ofNat exponent.natAbs)⟩,
      ⟨single d (by simp), by simp, by simp, ?_⟩, rfl, ?_⟩
    · rintro _ _ ⟨⟩
      exact places
    · simp [NumberText.body, NumberText.fractionChars, NumberText.exponentChars, scientific]
  | d :: e :: more, all =>
    refine ⟨⟨negative, [d], some (e :: more),
      some (decide (exponent < 0), Decimal.ofNat exponent.natAbs)⟩,
      ⟨single d (by simp), by simp, ?_, ?_⟩, rfl, ?_⟩
    · rintro _ ⟨⟩
      exact ⟨by simp, fun c member => all.2 c (List.mem_cons_of_mem d member)⟩
    · rintro _ _ ⟨⟩
      exact places
    · simp [NumberText.body, NumberText.fractionChars, NumberText.exponentChars, scientific]

/-- The text of a double without its sign, from its shortest decimal. -/
lemma body_spell {digits : List Char} {exponent : ℤ} (negative isZero : Bool)
    (found : isZero = false → AreDigits digits ∧ ∀ cs, digits = '0' :: cs → exponent = 0) :
    ∃ t : NumberText, t.Proper ∧ t.negative = negative ∧
      t.body = if isZero then ['0', '.', '0'] else
        if -5 ≤ exponent && exponent < 16 then positional digits (exponent + 1)
        else scientific digits exponent := by
  cases isZero with
  | true =>
      refine ⟨⟨negative, ['0'], some ['0'], none⟩, ⟨?_, by simp, ?_, by simp⟩, rfl, rfl⟩
      · exact ⟨by simp, by simp; decide⟩
      · rintro _ ⟨⟩
        exact ⟨by simp, by simp; decide⟩
  | false =>
      obtain ⟨all, lone⟩ := found rfl
      simp only [Bool.false_eq_true, if_false]
      split_ifs
      · exact positional_spell all (fun cs same => by rw [lone cs same]; decide) negative
      · exact scientific_spell all exponent negative

/-- **The text of a double** has proper parts. -/
theorem exists_spell (x : Double) : ∃ t : NumberText, t.Proper ∧ x.text = t.spell := by
  have found : x.isZero = false → AreDigits (shortest x.magnitude).1 ∧
      ∀ cs, (shortest x.magnitude).1 = '0' :: cs → (shortest x.magnitude).2 = 0 := fun zero =>
    shortest_digits (Nat.pos_of_ne_zero (by simpa [isZero] using zero))
  unfold text
  generalize shortest x.magnitude = decimal at found ⊢
  obtain ⟨digits, exponent⟩ := decimal
  obtain ⟨t, proper, sign, body⟩ := body_spell x.isNegative x.isZero found
  refine ⟨t, proper, ?_⟩
  simp only [NumberText.spell, sign, body]

end Double

/-- **Finite doubles take part** in what is known about compact texts. -/
theorem Json.Number.stands_double {x : Double} (finite : x.isFinite = true) :
    (Json.Number.double x).Stands := by
  obtain ⟨t, proper, text⟩ := x.exists_spell
  refine Json.Number.stands_of_spell proper ?_
  rw [Json.Number.chars, if_pos finite, text]

end ControlPlane
