import Mathlib
import ControlPlane.Toml.Writer

/-!
# Strings and keys are read back

A string is written in the first of four forms that suits it.  Whichever it is, the reader comes back to the
same characters, and it stops where the form ends.

* `readBasic_basicBody`, `readLongBasic_basicBody` — the forms with escapes hold every text.
* `readLiteral_append`, `readLongLiteral_append` — the forms without escapes hold the texts that suit them.
* **`readString_stringText`** — the text of a string is read back as the string.
* **`readParts_pathText`** — the text of a path is read back as the path.
-/

namespace ControlPlane.Toml

/-! ## Escapes -/

/-- A letter that stands for a character behind a backslash, and for nothing else. -/
structure Letter (e c : Char) : Prop where
  undone : unescape? e = some c
  not_gap : isGap e = false
  not_end : e ≠ '\n' ∧ e ≠ '\r'
  not_number : e ≠ 'u' ∧ e ≠ 'U'

/-- The four digits of a character that is below the first letter outside of ASCII are read back. -/
lemma scalar?_upper : ∀ n < 0x80, ∃ a b d e,
    Hex.upper 4 n = [a, b, d, e] ∧ scalar? [a, b, d, e] = some (Char.ofNat n) := by
  intro n small
  refine ⟨_, _, _, _, rfl, ?_⟩
  revert n
  decide

lemma toNat_lt_of_needsEscape {c : Char} (needed : needsEscape c = true) : c.toNat < 0x80 := by
  simp only [needsEscape, isPlain, Bool.and_eq_true, Bool.not_eq_true', Bool.or_eq_false_iff,
    Bool.and_eq_false_iff, decide_eq_false_iff_not, not_not, not_le] at needed
  omega

/-- The characters of which an escape may be written: a quote, and what is always escaped in one form or another. -/
def Escaped (c : Char) : Prop := c = '"' ∨ isAlwaysEscaped false c = true

/-- **An escape is a letter or four digits** behind a backslash. -/
lemma escapeOf_cases {c : Char} (escaped : Escaped c) :
    (∃ e, escapeOf c = ['\\', e] ∧ Letter e c)
      ∨ ∃ a b d e, escapeOf c = ['\\', 'u', a, b, d, e] ∧ scalar? [a, b, d, e] = some c := by
  unfold escapeOf
  split_ifs with backspace tab feed form back quote slash
  · rw [← Char.ofNat_toNat c, backspace]
    exact .inl ⟨'b', rfl, by decide, by decide, by decide, by decide⟩
  · subst tab; exact .inl ⟨'t', rfl, by decide, by decide, by decide, by decide⟩
  · subst feed; exact .inl ⟨'n', rfl, by decide, by decide, by decide, by decide⟩
  · rw [← Char.ofNat_toNat c, form]
    exact .inl ⟨'f', rfl, by decide, by decide, by decide, by decide⟩
  · subst back; exact .inl ⟨'r', rfl, by decide, by decide, by decide, by decide⟩
  · subst quote; exact .inl ⟨'"', rfl, by decide, by decide, by decide, by decide⟩
  · subst slash; exact .inl ⟨'\\', rfl, by decide, by decide, by decide, by decide⟩
  · -- only a control character is left
    have needed : needsEscape c = true := by simpa [Escaped, isAlwaysEscaped, tab, feed, quote, slash] using escaped
    obtain ⟨a, b, d, e, digits, read⟩ := scalar?_upper c.toNat (toNat_lt_of_needsEscape needed)
    rw [Char.ofNat_toNat] at read
    exact .inr ⟨a, b, d, e, by rw [digits], read⟩

lemma readBasic_escapeOf {c : Char} (escaped : Escaped c) (rest : List Char) :
    readBasic (escapeOf c ++ rest) = push (some c) (readBasic rest) := by
  rcases escapeOf_cases escaped with ⟨e, text, letter⟩ | ⟨a, b, d, e, text, read⟩
  · rw [text, List.cons_append, List.cons_append, List.nil_append, readBasic.eq_def]
    simp [letter.not_number, letter.undone]
  · rw [text]
    simp [readBasic, read]

lemma readLongBasic_escapeOf {c : Char} (escaped : Escaped c) (rest : List Char) :
    readLongBasic .off (escapeOf c ++ rest) = push (some c) (readLongBasic .off rest) := by
  rcases escapeOf_cases escaped with ⟨e, text, letter⟩ | ⟨a, b, d, e, text, read⟩
  · rw [text, List.cons_append, List.cons_append, List.nil_append, readLongBasic.eq_def]
    simp [letter.not_number, letter.not_end, letter.not_gap, letter.undone]
  · rw [text, List.cons_append, List.cons_append, readLongBasic.eq_def]
    simp [isGap, read]

/-- **What is written of one character** inside of a basic string: a quote that the form allows, an escape, or
the character itself. -/
lemma basicBody_cons (long : Bool) (run : ℕ) (c : Char) (cs : List Char) :
    (c = '"' ∧ long = true ∧ run < 2 ∧ basicBody long run (c :: cs) = c :: basicBody long (run + 1) cs)
      ∨ (Escaped c ∧ basicBody long run (c :: cs) = escapeOf c ++ basicBody long 0 cs)
      ∨ c ≠ '"' ∧ c ≠ '\\' ∧ (isPlain c = true ∨ long = true ∧ c = '\n')
        ∧ basicBody long run (c :: cs) = c :: basicBody long 0 cs := by
  rw [basicBody]
  by_cases quote : c = '"'
  · rw [if_pos quote]
    by_cases few : run < if long then 2 else 0
    · cases long with
      | false => simp at few
      | true => exact .inl ⟨quote, rfl, few, if_pos few⟩
    · exact .inr (.inl ⟨.inl quote, if_neg few⟩)
  · rw [if_neg quote]
    by_cases always : isAlwaysEscaped long c = true
    · refine .inr (.inl ⟨.inr ?_, if_pos always⟩)
      by_cases feed : c = '\n' <;> simp_all [isAlwaysEscaped]
    · refine .inr (.inr ⟨quote, ?_, ?_, if_neg always⟩)
      · rintro rfl
        exact always rfl
      · by_cases feed : c = '\n' <;> simp_all [isAlwaysEscaped, needsEscape]

/-- A carriage return stands nowhere as it is. -/
lemma ne_return {c : Char} (plain : isPlain c = true ∨ c = '\n') : c ≠ '\r' := by
  rintro rfl
  simp [isPlain] at plain

/-! ## Strings on one line -/

/-- **A short basic string holds every text.** -/
lemma readBasic_basicBody (run : ℕ) (cs rest : List Char) :
    readBasic (basicBody false run cs ++ '"' :: rest) = some (cs, rest) := by
  induction cs generalizing run with
  | nil => rw [basicBody, List.nil_append, readBasic.eq_def]; simp
  | cons c cs ih =>
      rcases basicBody_cons false run c cs with ⟨-, long, -⟩ | ⟨escaped, text⟩ | ⟨quote, slash, plain, text⟩
      · contradiction
      · rw [text, List.append_assoc, readBasic_escapeOf escaped, ih]
        rfl
      · rw [text, List.cons_append, readBasic.eq_def]
        simp_all [push]

/-- **A short literal string holds what is plain** and has no quote of its own. -/
lemma readLiteral_append {cs : List Char} (plain : ∀ c ∈ cs, isPlain c = true) (no_quote : '\x27' ∉ cs)
    (rest : List Char) : readLiteral (cs ++ '\x27' :: rest) = some (cs, rest) := by
  induction cs with
  | nil => simp [readLiteral]
  | cons c cs ih =>
      obtain ⟨first, others⟩ := List.forall_mem_cons.mp plain
      obtain ⟨other, absent⟩ := not_or.mp (List.mem_cons.not.mp no_quote)
      rw [List.cons_append, readLiteral, if_neg (Ne.symm other), if_pos first, ih others absent]
      rfl

/-! ## Quotes in a row -/

/-- One step in the search for the longest run: the longest so far, and the one at hand. -/
def tally (q : Char) (state : ℕ × ℕ) (c : Char) : ℕ × ℕ :=
  if c = q then (max state.1 (state.2 + 1), state.2 + 1) else (state.1, 0)

lemma longestRun_eq (q : Char) (cs : List Char) : longestRun q cs = (cs.foldl (tally q) (0, 0)).1 := rfl

lemma foldl_tally_grows (q : Char) (cs : List Char) (state : ℕ × ℕ) :
    state.1 ≤ (cs.foldl (tally q) state).1 := by
  induction cs generalizing state with
  | nil => exact le_rfl
  | cons c cs ih =>
      refine le_trans ?_ (ih _)
      unfold tally
      split_ifs
      · exact le_max_left _ _
      · exact le_rfl

lemma foldl_tally_replicate (q : Char) (j : ℕ) (state : ℕ × ℕ) (kept : state.2 ≤ state.1) :
    state.2 + j ≤ ((List.replicate j q).foldl (tally q) state).1 := by
  induction j generalizing state with
  | zero => exact kept
  | succ j ih =>
      have next := ih (tally q state q) (by simp [tally])
      rw [List.replicate_succ, List.foldl_cons]
      refine le_trans (le_of_eq ?_) next
      simp only [tally, if_true]
      omega

/-- **No run is longer than the longest.** -/
lemma le_longestRun (q : Char) (before after : List Char) (j : ℕ) :
    j ≤ longestRun q (before ++ List.replicate j q ++ after) := by
  rw [longestRun_eq, List.foldl_append, List.foldl_append]
  refine le_trans ?_ (foldl_tally_grows q after _)
  cases j with
  | zero => exact Nat.zero_le _
  | succ j =>
      have grown := foldl_tally_replicate q j (tally q (before.foldl (tally q) (0, 0)) q) (by simp [tally])
      rw [List.replicate_succ, List.foldl_cons]
      refine le_trans ?_ grown
      simp only [tally, if_true]
      omega

/-- The quotes at the beginning of a text. -/
lemma exists_quotes (q : Char) (cs : List Char) :
    ∃ j, cs = List.replicate j q ∨ ∃ c more, cs = List.replicate j q ++ c :: more ∧ c ≠ q := by
  induction cs with
  | nil => exact ⟨0, .inl rfl⟩
  | cons c cs ih =>
      by_cases quote : c = q
      · subst quote
        obtain ⟨j, all | ⟨d, more, some_quotes, other⟩⟩ := ih
        · exact ⟨j + 1, .inl (by rw [all, List.replicate_succ])⟩
        · exact ⟨j + 1, .inr ⟨d, more, by rw [some_quotes, List.replicate_succ, List.cons_append], other⟩⟩
      · exact ⟨0, .inr ⟨c, cs, rfl, quote⟩⟩

/-- A run of less than three quotes closes nothing. -/
lemma closing_open {q c : Char} {j : ℕ} (few : j < 3) (other : c ≠ q) (more : List Char) :
    closing q (List.replicate j q ++ c :: more) = none := by
  have run : (List.replicate j q ++ c :: more).takeWhile (· = q) = List.replicate j q := by
    rw [List.takeWhile_append_of_pos (by simp), List.takeWhile_cons_of_neg (by simpa using other),
      List.append_nil]
  rw [closing, run, List.length_replicate, if_neg (by omega)]

/-- Three quotes close, and up to two quotes before them belong to the text. -/
lemma closing_close {q : Char} {j : ℕ} (few : j ≤ 2) {rest : List Char} (other : rest.head? ≠ some q) :
    closing q (List.replicate j q ++ (List.replicate 3 q ++ rest)) = some (List.replicate j q, rest) := by
  have stops : rest.takeWhile (· = q) = [] := by
    cases rest with
    | nil => rfl
    | cons c cs => exact List.takeWhile_cons_of_neg (by simpa using other)
  have run : (List.replicate (j + 3) q ++ rest).takeWhile (· = q) = List.replicate (j + 3) q := by
    rw [List.takeWhile_append_of_pos (by simp), stops, List.append_nil]
  rw [← List.append_assoc, ← List.replicate_add, closing, run, List.length_replicate, if_pos (by omega),
    Nat.add_sub_cancel, min_eq_left few]
  dsimp only
  rw [Nat.add_comm 3 j, List.drop_left' (by simp)]

/-! ## Long strings -/

/-- An escape begins with its backslash. -/
lemma exists_escapeOf (c : Char) : ∃ more, escapeOf c = '\\' :: more := by
  unfold escapeOf
  split_ifs <;> exact ⟨_, rfl⟩

/-- **No more than two quotes** stand in a row inside of a long basic string; where nothing but quotes is
written, they are the text. -/
lemma basicBody_quotes (cs : List Char) {run : ℕ} (few : run ≤ 2) :
    ∃ j, run + j ≤ 2 ∧ ((cs = List.replicate j '"' ∧ basicBody true run cs = cs)
      ∨ ∃ c more, basicBody true run cs = List.replicate j '"' ++ c :: more ∧ c ≠ '"') := by
  induction cs generalizing run with
  | nil => exact ⟨0, few, .inl ⟨rfl, rfl⟩⟩
  | cons c cs ih =>
      rcases basicBody_cons true run c cs with ⟨rfl, -, less, text⟩ | ⟨-, text⟩ | ⟨quote, -, -, text⟩
      · have few : run + 1 ≤ 2 := less
        obtain ⟨j, bound, ⟨all, same⟩ | ⟨d, more, body, other⟩⟩ := ih few
        · exact ⟨j + 1, by omega, .inl ⟨by rw [all, List.replicate_succ], by rw [text, same]⟩⟩
        · exact ⟨j + 1, by omega, .inr ⟨d, more, by rw [text, body, List.replicate_succ, List.cons_append], other⟩⟩
      · obtain ⟨more, escape⟩ := exists_escapeOf c
        exact ⟨0, few, .inr ⟨'\\', more ++ basicBody true 0 cs, by rw [text, escape]; rfl, by decide⟩⟩
      · exact ⟨0, few, .inr ⟨c, basicBody true 0 cs, text, quote⟩⟩

lemma readLongBasic_close {cs : List Char} {done : List Char × List Char}
    (closed : closing '"' ('"' :: cs) = some done) : readLongBasic .off ('"' :: cs) = some done := by
  rw [readLongBasic.eq_def]
  dsimp only
  rw [closed]
  rfl

lemma readLongBasic_open {cs : List Char} (still : closing '"' ('"' :: cs) = none) :
    readLongBasic .off ('"' :: cs) = push (some '"') (readLongBasic .off cs) := by
  rw [readLongBasic.eq_def]
  dsimp only
  rw [still]
  rfl

variable {rest : List Char}

/-- **A long basic string holds every text**, whatever but a quote comes after it. -/
lemma readLongBasic_basicBody (cs : List Char) {run : ℕ} (few : run ≤ 2) (other : rest.head? ≠ some '"') :
    readLongBasic .off (basicBody true run cs ++ (List.replicate 3 '"' ++ rest)) = some (cs, rest) := by
  induction cs generalizing run with
  | nil =>
      have closed := closing_close (q := '"') (j := 0) (by omega) other
      exact readLongBasic_close closed
  | cons c cs ih =>
      rcases basicBody_cons true run c cs with ⟨rfl, -, less, text⟩ | ⟨escaped, text⟩ | ⟨quote, slash, plain, text⟩
      · -- either this quote begins the run that closes the string, or it is one of the text
        have few : run + 1 ≤ 2 := less
        obtain ⟨j, bound, ⟨all, same⟩ | ⟨d, more, body, differs⟩⟩ := basicBody_quotes cs few
        · have closed := closing_close (q := '"') (j := j + 1) (by omega) other
          rw [text, same, all]
          exact readLongBasic_close closed
        · have open_still := closing_open (j := j + 1) (by omega) differs (more ++ (List.replicate 3 '"' ++ rest))
          have next := ih few
          rw [body, List.append_assoc, List.cons_append] at next
          rw [List.replicate_succ, List.cons_append] at open_still
          rw [text, body, List.cons_append, List.append_assoc, List.cons_append, readLongBasic_open open_still, next]
          rfl
      · rw [text, List.append_assoc, readLongBasic_escapeOf escaped, ih (Nat.zero_le 2)]
        rfl
      · rw [text, List.cons_append, readLongBasic.eq_def]
        have back := ne_return (plain.imp_right And.right)
        simp_all [push]

lemma readLongLiteral_close {cs : List Char} {done : List Char × List Char}
    (closed : closing '\x27' ('\x27' :: cs) = some done) : readLongLiteral ('\x27' :: cs) = some done := by
  rw [readLongLiteral, if_pos rfl, closed]

lemma readLongLiteral_open {cs : List Char} (still : closing '\x27' ('\x27' :: cs) = none) :
    readLongLiteral ('\x27' :: cs) = push (some '\x27') (readLongLiteral cs) := by
  rw [readLongLiteral, if_pos rfl, still]

/-- **A long literal string holds what is plain or a line feed**, with no more than two quotes in a row. -/
lemma readLongLiteral_append {cs : List Char} (plain : ∀ c ∈ cs, isPlain c = true ∨ c = '\n')
    (few : ∀ j, List.replicate j '\x27' <:+: cs → j ≤ 2) (other : rest.head? ≠ some '\x27') :
    readLongLiteral (cs ++ (List.replicate 3 '\x27' ++ rest)) = some (cs, rest) := by
  induction cs with
  | nil =>
      have closed := closing_close (q := '\x27') (j := 0) (by omega) other
      exact readLongLiteral_close closed
  | cons c cs ih =>
      obtain ⟨first, others⟩ := List.forall_mem_cons.mp plain
      have next := ih others fun j run => few j (run.trans (List.suffix_cons c cs).isInfix)
      by_cases quote : c = '\x27'
      · subst quote
        obtain ⟨j, all | ⟨d, more, text, differs⟩⟩ := exists_quotes '\x27' cs
        · have bound := few (j + 1) (by rw [all, List.replicate_succ])
          have closed := closing_close (q := '\x27') (j := j + 1) bound other
          rw [all]
          exact readLongLiteral_close closed
        · have bound := few (j + 1) (by
            rw [text, List.replicate_succ, ← List.cons_append]
            exact (List.prefix_append _ _).isInfix)
          have open_still := closing_open (j := j + 1) (by omega) differs (more ++ (List.replicate 3 '\x27' ++ rest))
          rw [text, List.append_assoc, List.cons_append] at next
          rw [List.replicate_succ, List.cons_append] at open_still
          rw [text, List.cons_append, List.append_assoc, List.cons_append]
          rw [readLongLiteral_open open_still, next]
          rfl
      · have back := ne_return first
        rw [List.cons_append, readLongLiteral, if_neg quote, next]
        simp_all [push]

/-! ## Strings of any form -/

/-- A text that does not go on with a quote. -/
def Unquoted (rest : List Char) : Prop := rest.head? ≠ some '"' ∧ rest.head? ≠ some '\x27'

/-- Nothing that is written inside of a short basic string begins with a quote. -/
lemma head?_basicBody_ne (cs : List Char) : (basicBody false 0 cs).head? ≠ some '"' := by
  cases cs with
  | nil => exact nofun
  | cons c cs =>
      rcases basicBody_cons false 0 c cs with ⟨-, long, -⟩ | ⟨-, text⟩ | ⟨quote, -, -, text⟩
      · contradiction
      · obtain ⟨more, escape⟩ := exists_escapeOf c
        rw [text, escape]
        exact ne_of_beq_false rfl
      · rw [text]
        simpa using quote

lemma readString_basic (cs : List Char) (clear : Unquoted rest) :
    readString (basic cs ++ rest) = some (String.ofList cs, rest) := by
  have read := readBasic_basicBody 0 cs rest
  have first := head?_basicBody_ne cs
  rw [basic, List.cons_append, List.append_assoc, List.singleton_append]
  rw [readString]
  · rw [read]
    rfl
  · intro xs twice
    cases body : basicBody false 0 cs with
    | nil =>
        rw [body, List.nil_append] at twice
        obtain ⟨-, rfl⟩ := List.cons.inj twice
        exact clear.1 rfl
    | cons c more =>
        rw [body] at first twice
        rw [List.cons_append] at twice
        exact first (by rw [(List.cons.inj twice).1]; rfl)

lemma readString_literal {cs : List Char} (plain : ∀ c ∈ cs, isPlain c = true) (no_quote : '\x27' ∉ cs)
    (clear : Unquoted rest) : readString (literal cs ++ rest) = some (String.ofList cs, rest) := by
  have read := readLiteral_append plain no_quote rest
  rw [literal, List.cons_append, List.append_assoc, List.singleton_append]
  rw [readString]
  · rw [read]
    rfl
  · intro xs twice
    cases cs with
    | nil =>
        obtain ⟨-, rfl⟩ := List.cons.inj twice
        exact clear.2 rfl
    | cons c more =>
        rw [List.cons_append] at twice
        exact no_quote (by rw [(List.cons.inj twice).1]; exact List.mem_cons_self)

/-- Where no line end follows the opening quotes, the text begins at once. -/
lemma skipFirstNewline_of_head {cs : List Char} (feed : cs.head? ≠ some '\n') (back : cs.head? ≠ some '\r') :
    skipFirstNewline cs = cs := by
  have none : readNewline cs = none := by
    unfold readNewline
    split
    · exact absurd rfl feed
    · exact absurd rfl back
    · rfl
  rw [skipFirstNewline, none, Option.getD_none]

/-- The line end that a long form may begin with is skipped, and nothing else. -/
lemma skipFirstNewline_longStart {cs text : List Char}
    (first : '\n' ∉ cs → text.head? ≠ some '\n' ∧ text.head? ≠ some '\r') :
    skipFirstNewline (longStart cs ++ text) = text := by
  unfold longStart
  split_ifs with feed
  · rfl
  · obtain ⟨not_feed, not_back⟩ := first (by simpa using feed)
    exact skipFirstNewline_of_head not_feed not_back

lemma readString_longBasic (cs : List Char) (clear : Unquoted rest) :
    readString (longBasic cs ++ rest) = some (String.ofList cs, rest) := by
  have text : longBasic cs ++ rest
      = '"' :: '"' :: '"' :: (longStart cs ++ (basicBody true 0 cs ++ (List.replicate 3 '"' ++ rest))) := by
    simp [longBasic]
  have begins : skipFirstNewline (longStart cs ++ (basicBody true 0 cs ++ (List.replicate 3 '"' ++ rest)))
      = basicBody true 0 cs ++ (List.replicate 3 '"' ++ rest) := by
    refine skipFirstNewline_longStart fun no_feed => ?_
    cases cs with
    | nil => exact ⟨ne_of_beq_false rfl, ne_of_beq_false rfl⟩
    | cons c cs =>
        rcases basicBody_cons true 0 c cs with ⟨rfl, -, -, body⟩ | ⟨-, body⟩ | ⟨-, -, plain, body⟩
        · rw [body]
          exact ⟨ne_of_beq_false rfl, ne_of_beq_false rfl⟩
        · obtain ⟨more, escape⟩ := exists_escapeOf c
          rw [body, escape]
          exact ⟨ne_of_beq_false rfl, ne_of_beq_false rfl⟩
        · have not_feed : c ≠ '\n' := fun same => no_feed (by rw [same]; exact List.mem_cons_self)
          have not_back := ne_return (plain.imp_right And.right)
          rw [body]
          exact ⟨by simpa using not_feed, by simpa using not_back⟩
  rw [text, readString, begins, readLongBasic_basicBody cs (Nat.zero_le 2) clear.1]
  rfl

lemma readString_longLiteral {cs : List Char} (plain : ∀ c ∈ cs, isPlain c = true ∨ c = '\n')
    (few : longestRun '\x27' cs ≤ 2) (clear : Unquoted rest) :
    readString (longLiteral cs ++ rest) = some (String.ofList cs, rest) := by
  have text : longLiteral cs ++ rest
      = '\x27' :: '\x27' :: '\x27' :: (longStart cs ++ (cs ++ (List.replicate 3 '\x27' ++ rest))) := by
    simp [longLiteral]
  have begins : skipFirstNewline (longStart cs ++ (cs ++ (List.replicate 3 '\x27' ++ rest)))
      = cs ++ (List.replicate 3 '\x27' ++ rest) := by
    refine skipFirstNewline_longStart fun no_feed => ?_
    cases cs with
    | nil => exact ⟨ne_of_beq_false rfl, ne_of_beq_false rfl⟩
    | cons c cs =>
        have not_feed : c ≠ '\n' := fun same => no_feed (by rw [same]; exact List.mem_cons_self)
        have not_back := ne_return (plain c List.mem_cons_self)
        exact ⟨by simpa using not_feed, by simpa using not_back⟩
  have runs : ∀ j, List.replicate j '\x27' <:+: cs → j ≤ 2 := by
    rintro j ⟨before, after, rfl⟩
    exact le_trans (le_longestRun '\x27' before after j) few
  rw [text, readString, begins, readLongLiteral_append plain runs clear.2]
  rfl

/-- **The text of a string is read back as the string**, whatever stands in it. -/
lemma readString_stringText (s : String) (clear : Unquoted rest) :
    readString (stringText s ++ rest) = some (s, rest) := by
  have plain_or_feed : (s.toList.any needsEscape) = false → ∀ c ∈ s.toList, isPlain c = true ∨ c = '\n' := by
    intro no_control c member
    have here := List.any_eq_false.mp no_control c member
    by_cases feed : c = '\n' <;> simp_all [needsEscape]
  unfold stringText
  dsimp only
  split_ifs with first second third fourth fifth
  · rw [readString_basic _ clear, String.ofList_toList]
  · obtain ⟨⟨no_control, none⟩, no_feed⟩ : (s.toList.any needsEscape = false ∧ longestRun '\x27' s.toList = 0)
        ∧ '\n' ∉ s.toList := by simpa using second
    have plain : ∀ c ∈ s.toList, isPlain c = true := fun c member =>
      (plain_or_feed no_control c member).resolve_right fun feed => no_feed (feed ▸ member)
    have no_quote : '\x27' ∉ s.toList := by
      intro quote
      obtain ⟨before, after, split⟩ := List.append_of_mem quote
      have one := le_longestRun '\x27' before after 1
      rw [List.replicate_one, List.append_assoc, List.singleton_append, ← split, none] at one
      omega
    rw [readString_literal plain no_quote clear, String.ofList_toList]
  · rw [readString_longBasic _ clear, String.ofList_toList]
  · obtain ⟨no_control, few⟩ : s.toList.any needsEscape = false ∧ longestRun '\x27' s.toList ≤ 2 := by
      simpa using fourth
    rw [readString_longLiteral (plain_or_feed no_control) few clear, String.ofList_toList]
  · rw [readString_longBasic _ clear, String.ofList_toList]
  · rw [readString_basic _ clear, String.ofList_toList]

/-- The text of a string begins with a quote. -/
lemma exists_stringText (s : String) : ∃ c cs, stringText s = c :: cs ∧ (c = '"' ∨ c = '\x27') := by
  unfold stringText
  dsimp only
  split_ifs
  · exact ⟨_, _, rfl, .inl rfl⟩
  · exact ⟨_, _, rfl, .inr rfl⟩
  · exact ⟨_, _, rfl, .inl rfl⟩
  · exact ⟨_, _, rfl, .inr rfl⟩
  · exact ⟨_, _, rfl, .inl rfl⟩
  · exact ⟨_, _, rfl, .inl rfl⟩

/-! ## Keys -/

/-- The first character of a key is bare or a quote, and nothing else. -/
lemma exists_keyText (s : String) : ∃ c cs, keyText s = c :: cs
    ∧ ∀ d, isBare d = false → d ≠ '"' → d ≠ '\x27' → c ≠ d := by
  have basic : ∀ d, isBare d = false → d ≠ '"' → d ≠ '\x27' → '"' ≠ d := fun d _ other _ => other.symm
  unfold keyText
  dsimp only
  split_ifs with first
  · obtain ⟨nonempty, bare⟩ : s.toList ≠ [] ∧ ∀ c ∈ s.toList, isBare c = true := by simpa using first
    obtain ⟨c, cs, text⟩ := List.exists_cons_of_ne_nil nonempty
    refine ⟨c, cs, text, ?_⟩
    rintro d no_bare - - rfl
    have is_bare := bare c (by rw [text]; exact List.mem_cons_self)
    exact Bool.false_ne_true (no_bare.symm.trans is_bare)
  · exact ⟨_, _, rfl, basic⟩
  · exact ⟨_, _, rfl, fun d _ _ other => other.symm⟩
  · exact ⟨_, _, rfl, basic⟩

lemma pathText_cons (part next : String) (path : List String) :
    pathText (part :: next :: path) = keyText part ++ '.' :: pathText (next :: path) := by
  rw [pathText]
  exact List.cons_ne_nil _ _

/-- A path begins like the key of its first part. -/
lemma exists_pathText {path : List String} (named : path ≠ []) : ∃ c cs, pathText path = c :: cs
    ∧ ∀ d, isBare d = false → d ≠ '"' → d ≠ '\x27' → c ≠ d := by
  match path, named with
  | [part], _ => exact exists_keyText part
  | part :: next :: path, _ =>
      obtain ⟨c, cs, text, first⟩ := exists_keyText part
      exact ⟨c, _, by rw [pathText_cons, text, List.cons_append], first⟩

lemma readPart_basic (cs rest : List Char) :
    readPart (basic cs ++ rest) = some (String.ofList cs, rest) := by
  rw [basic, List.cons_append, List.append_assoc, List.singleton_append, readPart, readBasic_basicBody]
  rfl

/-- **One part of a key is read back**, if nothing bare comes after it. -/
lemma readPart_keyText (s : String) (stops : ∀ c ∈ rest.head?, isBare c = false) :
    readPart (keyText s ++ rest) = some (s, rest) := by
  unfold keyText
  dsimp only
  split_ifs with first second third
  · obtain ⟨nonempty, bare⟩ : s.toList ≠ [] ∧ ∀ c ∈ s.toList, isBare c = true := by simpa using first
    have none : rest.takeWhile isBare = [] := by
      cases rest with
      | nil => rfl
      | cons c cs => exact List.takeWhile_cons_of_neg (by simpa using stops c rfl)
    have taken : (s.toList ++ rest).takeWhile isBare = s.toList := by
      rw [List.takeWhile_append_of_pos bare, none, List.append_nil]
    rw [readPart]
    · simp [taken, nonempty]
    all_goals
      intro more text
      obtain ⟨c, cs, split⟩ := List.exists_cons_of_ne_nil nonempty
      have head := bare c (by rw [split]; exact List.mem_cons_self)
      rw [split, List.cons_append] at text
      rw [(List.cons.inj text).1] at head
      exact absurd head (by decide)
  · rw [readPart_basic, String.ofList_toList]
  · obtain ⟨plain, no_quote⟩ : (∀ c ∈ s.toList, isPlain c = true) ∧ '\x27' ∉ s.toList := by simpa using third
    rw [literal, List.cons_append, List.append_assoc, List.singleton_append, readPart,
      readLiteral_append plain no_quote]
    simp
  · rw [readPart_basic, String.ofList_toList]

/-- Nothing is skipped before a key. -/
lemma skipGap_keyText (s : String) (rest : List Char) : skipGap (keyText s ++ rest) = keyText s ++ rest := by
  obtain ⟨c, cs, text, first⟩ := exists_keyText s
  have blank := first ' ' (by decide) (by decide) (by decide)
  have tab := first '\t' (by decide) (by decide) (by decide)
  have no_gap : isGap c = false := by simp [isGap, blank, tab]
  rw [text, List.cons_append, skipGap, List.dropWhile_cons_of_neg (by simpa using no_gap)]

/-- **The text of a path is read back as the path**, if it has no more parts than are accepted. -/
lemma readParts_pathText {path : List String} (nonempty : path ≠ []) {limit : ℕ} (few : path.length ≤ limit)
    (stops : ∀ c ∈ rest.head?, isBare c = false) (no_point : (skipGap rest).head? ≠ some '.') :
    readParts limit (pathText path ++ rest) = some (path, skipGap rest) := by
  induction limit generalizing path with
  | zero => exact absurd (List.length_eq_zero_iff.mp (Nat.le_zero.mp few)) nonempty
  | succ limit ih =>
      match path, nonempty with
      | [part], _ =>
          rw [pathText, readParts, skipGap_keyText, readPart_keyText part stops]
          simp only [bind, Option.bind]
          split
          · rename_i more text
            exact absurd (by rw [text]; rfl) no_point
          · rfl
      | part :: next :: path, _ =>
          have others := ih (List.cons_ne_nil next path) (Nat.le_of_succ_le_succ few)
          have point : skipGap ('.' :: (pathText (next :: path) ++ rest))
              = '.' :: (pathText (next :: path) ++ rest) := rfl
          rw [pathText_cons, List.append_assoc, List.cons_append, readParts, skipGap_keyText,
            readPart_keyText part (by simp [isBare])]
          simp only [bind, Option.bind, point, others]

end ControlPlane.Toml
