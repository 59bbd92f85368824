import Mathlib
import ControlPlane.Proofs.Json.Text
import ControlPlane.Toml.Document

/-!
# Integers are read back

An integer at the end of a line is read back as itself.  A date and a time begin with digits as well, and so
does a float, but each of them has a mark among its digits or behind them which an integer does not have.

* `datetime_read_ofInt`, `readFloat_ofInt` — an integer is taken neither for a date or time nor for a float.
* **`readNumeric_ofInt`** — the text of an integer is read back as the integer.
-/

namespace ControlPlane.Toml

/-! ## Digits before the end of a line -/

section Digits

variable {digits : List Char} (all_digits : ∀ c ∈ digits, Decimal.isDigit c = true) (rest : List Char)

include all_digits

lemma digitRun_append : digitRun Decimal.isDigit (digits ++ '\n' :: rest) = (digits, '\n' :: rest) := by
  induction digits with
  | nil => simp [digitRun, Decimal.isDigit]
  | cons c cs ih =>
      obtain ⟨first, others⟩ := List.forall_mem_cons.mp all_digits
      simp [digitRun, first, ih others]

/-- **What follows a number of some digits** within a run of them is a digit or the end of the line. -/
lemma readMark_after_readNumber {c : Char} (no_digit : Decimal.isDigit c = false) (no_end : c ≠ '\n')
    {width low high n : ℕ} {left : List Char}
    (read : Datetime.readNumber width low high (digits ++ '\n' :: rest) = some (n, left)) :
    Datetime.readMark c left = none := by
  unfold Datetime.readNumber at read
  dsimp only at read
  split_ifs at read with fits
  obtain ⟨-, rfl⟩ := Prod.mk.inj (Option.some.inj read)
  obtain ⟨long, taken⟩ : (List.take width (digits ++ '\n' :: rest)).length = width
      ∧ ∀ d ∈ List.take width (digits ++ '\n' :: rest), Decimal.isDigit d = true := by
    simp only [Bool.and_eq_true, decide_eq_true_eq, List.all_eq_true] at fits
    exact ⟨fits.1.1.1, fits.1.1.2⟩
  -- the end of the line is no digit, so the number ends before it
  have within : width ≤ digits.length := by
    by_contra beyond
    have member : '\n' ∈ List.take width (digits ++ '\n' :: rest) := by
      refine List.mem_take_iff_getElem.mpr ⟨digits.length, by simp; omega, by simp⟩
    exact absurd (taken '\n' member) (by decide)
  rw [List.drop_append_of_le_length within]
  cases left : digits.drop width with
  | nil => simp [Datetime.readMark, no_end.symm]
  | cons d ds =>
      have digit := all_digits d (List.mem_of_mem_drop (by rw [left]; exact List.mem_cons_self))
      have other : d ≠ c := by
        rintro rfl
        rw [digit] at no_digit
        contradiction
      simp [Datetime.readMark, other]

lemma readDate_digits : Datetime.readDate (digits ++ '\n' :: rest) = none := by
  unfold Datetime.readDate
  cases read : Datetime.readNumber 4 0 9999 (digits ++ '\n' :: rest) with
  | none => rfl
  | some year =>
      have no_mark := readMark_after_readNumber all_digits rest (c := '-') (by decide) (by decide) read
      simp [bind, Option.bind, no_mark]

lemma readTime_digits : Datetime.readTime (digits ++ '\n' :: rest) = none := by
  unfold Datetime.readTime
  cases read : Datetime.readNumber 2 0 23 (digits ++ '\n' :: rest) with
  | none => rfl
  | some hour =>
      have no_mark := readMark_after_readNumber all_digits rest (c := ':') (by decide) (by decide) read
      simp [bind, Option.bind, no_mark]

end Digits

/-- Neither a date nor a time begins with a sign. -/
lemma datetime_read_sign (rest : List Char) : Datetime.read ('-' :: rest) = none := by
  have none : ∀ width low high, Datetime.readNumber (width + 1) low high ('-' :: rest) = none := by
    intro width low high
    unfold Datetime.readNumber
    dsimp only
    rw [if_neg]
    simp [Decimal.isDigit]
  simp [Datetime.read, Datetime.readDate, Datetime.readTime, none, bind, Option.bind]

/-! ## The text of an integer -/

/-- The digits of a number begin with one. -/
lemma exists_ofNat (n : ℕ) : ∃ c cs, Decimal.ofNat n = c :: cs ∧ Decimal.isDigit c = true := by
  obtain ⟨c, cs, text⟩ := List.exists_cons_of_ne_nil (Decimal.ofNat_ne_nil n)
  exact ⟨c, cs, text, Decimal.isDigit_of_mem_ofNat n c (by rw [text]; exact List.mem_cons_self)⟩

lemma readWhole_ofNat (n : ℕ) (rest : List Char) :
    readWhole (Decimal.ofNat n ++ '\n' :: rest) = some (Decimal.ofNat n, '\n' :: rest) := by
  obtain ⟨c, cs, text, first⟩ := exists_ofNat n
  by_cases zero : c = '0'
  · subst zero
    obtain rfl := Decimal.ofNat_eq_zero_cons text
    rw [text]
    rfl
  · have run := digitRun_append (Decimal.isDigit_of_mem_ofNat n) rest
    rw [readWhole, readDigits, run]
    · simp [text, first]
    · intro more same
      rw [text, List.cons_append] at same
      exact zero (List.cons.inj same).1

lemma readSign_of_digit {c : Char} (digit : Decimal.isDigit c = true) (cs : List Char) :
    readSign (c :: cs) = (false, c :: cs) := by
  unfold readSign
  split
  · rename_i same
    rw [(List.cons.inj same).1] at digit
    exact absurd digit (by decide)
  · rename_i same
    rw [(List.cons.inj same).1] at digit
    exact absurd digit (by decide)
  · rfl

/-- **The sign and the digits of an integer** are cut off its text. -/
lemma sign_and_digits (i : ℤ) (rest : List Char) :
    ∃ n : ℕ, readSign (Decimal.ofInt i ++ '\n' :: rest) = (decide (i < 0), Decimal.ofNat n ++ '\n' :: rest)
      ∧ (if decide (i < 0) = true then -(n : ℤ) else n) = i := by
  cases i with
  | ofNat n =>
      obtain ⟨c, cs, text, first⟩ := exists_ofNat n
      refine ⟨n, ?_, by simp⟩
      rw [Decimal.ofInt, text, List.cons_append, readSign_of_digit first]
      simp
  | negSucc n =>
      refine ⟨n + 1, ?_, by rw [if_pos (decide_eq_true (Int.negSucc_lt_zero n))]; rfl⟩
      rw [Decimal.ofInt, List.cons_append, readSign]
      simp

/-- **An integer is no date, time or float.** -/
lemma datetime_read_ofInt (i : ℤ) (rest : List Char) :
    Datetime.read (Decimal.ofInt i ++ '\n' :: rest) = none := by
  cases i with
  | ofNat n =>
      have digits := Decimal.isDigit_of_mem_ofNat n
      rw [Decimal.ofInt, Datetime.read, readDate_digits digits, readTime_digits digits]
      rfl
  | negSucc n => exact datetime_read_sign _

lemma readFloat_ofInt (i : ℤ) (rest : List Char) : readFloat (Decimal.ofInt i ++ '\n' :: rest) = none := by
  obtain ⟨n, sign, -⟩ := sign_and_digits i rest
  have no_decimal : readDecimalFloat (Decimal.ofInt i ++ '\n' :: rest) = none := by
    simp [readDecimalFloat, sign, readWhole_ofNat, readFraction, readExponent, bind, Option.bind]
  have no_name : readNamedFloat (Decimal.ofInt i ++ '\n' :: rest) = none := by
    obtain ⟨c, cs, text, first⟩ := exists_ofNat n
    rw [readNamedFloat, sign, text, List.cons_append]
    split
    · rename_i same
      rw [(List.cons.inj (Prod.mk.inj same).2).1] at first
      exact absurd first (by decide)
    · rename_i same
      rw [(List.cons.inj (Prod.mk.inj same).2).1] at first
      exact absurd first (by decide)
    · rfl
  rw [readFloat, no_decimal, no_name]

lemma readInteger_ofInt {i : ℤ} (low : minInteger ≤ i) (high : i ≤ maxInteger) (rest : List Char) :
    readInteger (Decimal.ofInt i ++ '\n' :: rest) = some (i, '\n' :: rest) := by
  obtain ⟨n, sign, value⟩ := sign_and_digits i rest
  -- a zero is followed by the end of the line, and not by the mark of another base
  have no_base : ∀ c more, c ≠ '\n' → Decimal.ofInt i ++ '\n' :: rest ≠ '0' :: c :: more := by
    intro c more no_end same
    cases i with
    | ofNat n =>
        obtain ⟨d, ds, text, -⟩ := exists_ofNat n
        rw [Decimal.ofInt, text, List.cons_append] at same
        obtain ⟨rfl, tail⟩ := List.cons.inj same
        obtain rfl := Decimal.ofNat_eq_zero_cons text
        exact no_end (List.cons.inj tail).1.symm
    | negSucc n => exact absurd (List.cons.inj same).1 (by decide)
  rw [readInteger]
  · simp only [sign, readWhole_ofNat, Decimal.toNat_ofNat, bind, Option.bind]
    rw [value, checked, if_pos (by simp [low, high])]
  · exact fun more => no_base 'x' more (by decide)
  · exact fun more => no_base 'o' more (by decide)
  · exact fun more => no_base 'b' more (by decide)

/-- **The text of an integer is read back as the integer**, at the end of a line. -/
lemma readNumeric_ofInt {i : ℤ} (low : minInteger ≤ i) (high : i ≤ maxInteger) (rest : List Char) :
    readNumeric (Decimal.ofInt i ++ '\n' :: rest) = some (.integer i, '\n' :: rest) := by
  rw [readNumeric, datetime_read_ofInt, readFloat_ofInt, readInteger_ofInt low high]
  rfl

end ControlPlane.Toml
