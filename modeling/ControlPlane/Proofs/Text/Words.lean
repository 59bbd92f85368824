import Mathlib
import ControlPlane.Number.Decimal
import ControlPlane.Text.Blank

/-!
# Words, and texts between blanks

A text is cut into pieces at separators, and its words are the pieces between blanks that are not empty.
What a cut finds is said here by what the text is put together from.

* `pieces_of_clear`, `pieces_append_cons` — the pieces of a text.
* `Worded`, **`words_eq_iff`** — words with blanks around them are the words of the text, and no others.
* `trimBlank_append` — a text between blanks.
* `Decimal.Spells`, `Decimal.count?_eq_some_iff` — the texts of a count.
-/

namespace ControlPlane

/-! ## Pieces -/

section Pieces

variable {sep : Char → Bool} {s : List Char}

lemma pieces_of_clear (clear : ∀ c ∈ s, sep c = false) : pieces sep s = [s] := by
  induction s with
  | nil => rfl
  | cons c rest ih =>
      have others := ih fun d member => clear d (List.mem_cons_of_mem c member)
      simp [pieces, clear c List.mem_cons_self, others]

lemma pieces_append_cons (clear : ∀ c ∈ s, sep c = false) {c : Char} (separates : sep c = true)
    (rest : List Char) : pieces sep (s ++ c :: rest) = s :: pieces sep rest := by
  induction s with
  | nil => simp [pieces, separates]
  | cons d s ih =>
      have others := ih fun e member => clear e (List.mem_cons_of_mem d member)
      simp [pieces, clear d List.mem_cons_self, others]

end Pieces

/-! ## Words -/

/-- A text of blanks only. -/
def Blank (s : List Char) : Prop := ∀ c ∈ s, isBlank c = true

lemma blank_nil : Blank [] := nofun

/-- **A text made of words**: blanks, and words without blanks, two of which have a blank between them. -/
inductive Worded : List Char → List (List Char) → Prop
  | blank {gap : List Char} (gap_blank : Blank gap) : Worded gap []
  | word {gap word rest : List Char} {more : List (List Char)} (gap_blank : Blank gap) (ne_nil : word ≠ [])
      (solid : ∀ c ∈ word, isBlank c = false) (apart : ∀ c ∈ rest.head?, isBlank c = true)
      (later : Worded rest more) : Worded (gap ++ word ++ rest) (word :: more)

section Words

variable {gap word rest s : List Char}

lemma words_gap (gap_blank : Blank gap) (s : List Char) : words (gap ++ s) = words s := by
  induction gap with
  | nil => rfl
  | cons c gap ih =>
      have first : isBlank c = true := gap_blank c List.mem_cons_self
      have others := ih fun d member => gap_blank d (List.mem_cons_of_mem c member)
      simpa [words, pieces, first] using others

lemma words_word (ne_nil : word ≠ []) (solid : ∀ c ∈ word, isBlank c = false)
    (apart : ∀ c ∈ rest.head?, isBlank c = true) : words (word ++ rest) = word :: words rest := by
  cases rest with
  | nil => simp [words, pieces_of_clear solid, ne_nil, pieces]
  | cons c rest =>
      have separates : isBlank c = true := apart c rfl
      simp [words, pieces_append_cons solid separates, ne_nil, pieces, separates]

lemma Worded.words_eq {ws : List (List Char)} (h : Worded s ws) : words s = ws := by
  induction h with
  | @blank gap gap_blank =>
      have := words_gap gap_blank []
      rw [List.append_nil] at this
      exact this
  | word gap_blank ne_nil solid apart _ ih =>
      rw [List.append_assoc, words_gap gap_blank, words_word ne_nil solid apart, ih]

/-- Every text is made of its words: the blanks in front, the first word, and what is made of the others. -/
lemma worded_words (s : List Char) : Worded s (words s) := by
  induction size : s.length using Nat.strongRecOn generalizing s with
  | _ n ih =>
      have split : s = s.takeWhile isBlank ++ s.dropWhile isBlank :=
        List.takeWhile_append_dropWhile.symm
      have gap_blank : Blank (s.takeWhile isBlank) := fun c member => List.mem_takeWhile_imp member
      cases after : s.dropWhile isBlank with
      | nil =>
          rw [after, List.append_nil] at split
          rw [← split] at gap_blank
          rw [(Worded.blank gap_blank).words_eq]
          exact .blank gap_blank
      | cons c cs =>
          have first : isBlank c = false := by
            have := List.head?_dropWhile_not isBlank s
            simpa [after] using this
          -- the word goes on to the next blank
          let solid := fun d => !isBlank d
          have word_split : c :: cs = (c :: cs).takeWhile solid ++ (c :: cs).dropWhile solid :=
            List.takeWhile_append_dropWhile.symm
          have word_ne : (c :: cs).takeWhile solid ≠ [] := by simp [solid, first]
          have word_solid : ∀ d ∈ (c :: cs).takeWhile solid, isBlank d = false := fun d member => by
            simpa [solid] using List.mem_takeWhile_imp member
          have apart : ∀ d ∈ ((c :: cs).dropWhile solid).head?, isBlank d = true := by
            intro d member
            have := List.head?_dropWhile_not solid (c :: cs)
            rw [Option.mem_def.mp member] at this
            simpa [solid] using this
          have shorter : ((c :: cs).dropWhile solid).length < n := by
            have total := congrArg List.length split
            rw [after, word_split, List.length_append, List.length_append] at total
            have := List.length_pos_iff.mpr word_ne
            omega
          have later := ih _ shorter _ rfl
          have whole := Worded.word gap_blank word_ne word_solid apart later
          rw [List.append_assoc, ← word_split, ← after, ← split] at whole
          rwa [whole.words_eq]

/-- **The words of a text** are those that it is made of. -/
theorem words_eq_iff {ws : List (List Char)} : words s = ws ↔ Worded s ws :=
  ⟨fun same => same ▸ worded_words s, Worded.words_eq⟩

end Words

/-! ## Texts between blanks -/

/-- A text that neither begins nor ends with a blank. -/
def Trimmed (s : List Char) : Prop :=
  (∀ c ∈ s.head?, isBlank c = false) ∧ ∀ c ∈ s.getLast?, isBlank c = false

section Trimmed

variable {left s right : List Char}

lemma dropWhile_blank (gap_blank : Blank left) (starts : ∀ c ∈ s.head?, isBlank c = false) :
    (left ++ s).dropWhile isBlank = s := by
  rw [List.dropWhile_append_of_pos gap_blank]
  cases s with
  | nil => rfl
  | cons c cs => simp [starts c rfl]

/-- **A text between blanks** is what is left without them. -/
lemma trimBlank_append (left_blank : Blank left) (trimmed : Trimmed s) (right_blank : Blank right) :
    trimBlank (left ++ s ++ right) = s := by
  have ends : ∀ c ∈ s.reverse.head?, isBlank c = false := by simpa using trimmed.2
  have reversed : Blank right.reverse := fun c member => right_blank c (List.mem_reverse.mp member)
  cases s with
  | nil =>
      have all : Blank (left ++ [] ++ right) := fun c member => by
        rcases List.mem_append.mp member with member | member
        · exact left_blank c (by simpa using member)
        · exact right_blank c member
      have none := dropWhile_blank all (s := []) (by simp)
      rw [List.append_nil] at none
      rw [trimBlank, none]
      rfl
  | cons c cs =>
      rw [trimBlank, List.append_assoc, dropWhile_blank left_blank (by simpa using trimmed.1),
        List.reverse_append, dropWhile_blank reversed ends, List.reverse_reverse]

/-- What is left of a text without the blanks at its ends, and where it was. -/
lemma exists_trimBlank (s : List Char) :
    ∃ left right, Blank left ∧ Trimmed (trimBlank s) ∧ Blank right ∧ s = left ++ trimBlank s ++ right := by
  let front := s.dropWhile isBlank
  have start : s = s.takeWhile isBlank ++ front := List.takeWhile_append_dropWhile.symm
  have rear : front = trimBlank s ++ (front.reverse.takeWhile isBlank).reverse := by
    rw [trimBlank, ← List.reverse_append, List.takeWhile_append_dropWhile, List.reverse_reverse]
  have first : ∀ c ∈ front.head?, isBlank c = false := by
    intro c member
    have := List.head?_dropWhile_not isBlank s
    rw [show s.dropWhile isBlank = front from rfl, Option.mem_def.mp member] at this
    simpa using this
  have last : ∀ c ∈ (trimBlank s).getLast?, isBlank c = false := by
    intro c member
    have := List.head?_dropWhile_not isBlank front.reverse
    rw [trimBlank, List.getLast?_reverse] at member
    rw [Option.mem_def.mp member] at this
    simpa using this
  refine ⟨s.takeWhile isBlank, (front.reverse.takeWhile isBlank).reverse, ?_, ⟨?_, last⟩, ?_, ?_⟩
  · exact fun c member => List.mem_takeWhile_imp member
  · intro c member
    refine first c ?_
    rw [rear, List.head?_append, Option.mem_def.mp member]
    rfl
  · exact fun c member => List.mem_takeWhile_imp (List.mem_reverse.mp member)
  · rw [List.append_assoc, ← rear]
    exact start

end Trimmed

/-! ## Counts -/

namespace Decimal

variable {s : List Char} {n : ℕ}

/-- **A text spells a count**: its digits, before which a plus sign may stand. -/
def Spells (s : List Char) (n : ℕ) : Prop :=
  ∃ digits, (s = digits ∨ s = '+' :: digits) ∧ digits ≠ []
    ∧ (∀ c ∈ digits, isDigit c = true) ∧ toNat digits = n

/-- A count is read from the texts that spell it, if it is below the bound. -/
lemma count?_eq_some_iff {bound : ℕ} : count? bound s = some n ↔ Spells s n ∧ n < bound := by
  have digits_iff : ∀ digits : List Char,
      (if !digits.isEmpty && digits.all isDigit then
          if toNat digits < bound then some (toNat digits) else none
        else none) = some n
      ↔ (digits ≠ [] ∧ (∀ c ∈ digits, isDigit c = true) ∧ toNat digits = n) ∧ n < bound := by
    intro digits
    split_ifs with proper small
    · simp only [Bool.and_eq_true, Bool.not_eq_true', List.isEmpty_eq_false_iff, List.all_eq_true] at proper
      simp only [Option.some.injEq]
      exact ⟨fun same => ⟨⟨proper.1, proper.2, same⟩, same ▸ small⟩, fun h => h.1.2.2⟩
    · simp only [false_iff]
      rintro ⟨⟨-, -, rfl⟩, less⟩
      exact small less
    · simp only [false_iff]
      rintro ⟨⟨ne_nil, all, -⟩, -⟩
      exact proper (by simpa [ne_nil] using all)
  unfold count?
  split
  next rest =>
    refine (digits_iff rest).trans (and_congr_left fun _ => ⟨fun h => ⟨rest, .inr rfl, h⟩, ?_⟩)
    rintro ⟨digits, same | same, ne_nil, all, value⟩
    · exact absurd (all '+' (by rw [← same]; exact List.mem_cons_self)) (by decide)
    · obtain rfl := (List.cons.inj same).2
      exact ⟨ne_nil, all, value⟩
  next other =>
    refine (digits_iff s).trans (and_congr_left fun _ => ⟨fun h => ⟨s, .inl rfl, h⟩, ?_⟩)
    rintro ⟨digits, rfl | rfl, ne_nil, all, value⟩
    · exact ⟨ne_nil, all, value⟩
    · exact absurd rfl (other digits)

/-- The characters of a count are no blanks, and the last one is a digit. -/
lemma Spells.solid (h : Spells s n) :
    s ≠ [] ∧ (∀ c ∈ s, isBlank c = false) ∧ ∀ c ∈ s.getLast?, isDigit c = true := by
  have digit_solid : ∀ c, isDigit c = true → isBlank c = false := by
    intro c digit
    simp only [isDigit, Bool.and_eq_true, decide_eq_true_eq, Char.le_def, UInt32.le_iff_toNat_le] at digit
    have low : 48 ≤ c.toNat := digit.1
    have high : c.toNat ≤ 57 := digit.2
    simp only [isBlank, Bool.or_eq_false_iff, Bool.and_eq_false_iff, decide_eq_false_iff_not]
    omega
  obtain ⟨digits, same | same, ne_nil, all, -⟩ := h
  · subst same
    exact ⟨ne_nil, fun c member => digit_solid c (all c member),
      fun c member => all c (List.mem_of_getLast? member)⟩
  · subst same
    refine ⟨List.cons_ne_nil _ _, ?_, ?_⟩
    · intro c member
      rcases List.mem_cons.mp member with rfl | member
      · rfl
      · exact digit_solid c (all c member)
    · intro c member
      rw [List.getLast?_cons_of_ne_nil ne_nil] at member
      exact all c (List.mem_of_getLast? member)

end Decimal

end ControlPlane
