import Mathlib
import ControlPlane.Proofs.Toml.Integers
import ControlPlane.Proofs.Toml.Strings
import ControlPlane.Proofs.Toml.Tables

/-!
# Documents are read back

A document is written as headers, pairs and blank lines, and each of these lines does to the draft that is being
read what it says, whatever lines come after it.

* `readAnyValue_text` — the value of a pair is read back.
* `Leads` — a text whose lines lead from one draft to another; the draft at the end is the one that is read.
* `leads_pair`, `leads_header`, `leads_section` — the lines of a section.
* **`parse?_documentText`** — what is read of a document is what its sections make of nothing.
-/

namespace ControlPlane.Toml

/-! ## Values -/

/-- An integer of a pair fits in sixty-four bits with sign. -/
def Scalar.Fits : Scalar → Prop
  | string _ => True
  | integer i => minInteger ≤ i ∧ i ≤ maxInteger

lemma unquoted_newline (rest : List Char) : Unquoted ('\n' :: rest) := ⟨ne_of_beq_false rfl, ne_of_beq_false rfl⟩

/-- The first character of an integer is a digit or the sign. -/
lemma exists_ofInt (i : ℤ) : ∃ c cs, Decimal.ofInt i = c :: cs ∧ (Decimal.isDigit c = true ∨ c = '-') := by
  cases i with
  | ofNat n =>
      obtain ⟨c, cs, text, digit⟩ := exists_ofNat n
      exact ⟨c, cs, text, .inl digit⟩
  | negSucc n => exact ⟨'-', Decimal.ofNat (n + 1), rfl, .inr rfl⟩

/-- A character that is no digit and no sign does not begin an integer. -/
lemma ne_of_begins {c d : Char} (begins : Decimal.isDigit c = true ∨ c = '-') (no_digit : Decimal.isDigit d = false)
    (no_sign : d ≠ '-') : c ≠ d := by
  rintro rfl
  rcases begins with digit | sign
  · rw [digit] at no_digit
    contradiction
  · exact no_sign sign

/-- The text of a value begins neither with a blank nor with a bracket or a brace. -/
lemma Scalar.exists_text (v : Scalar) :
    ∃ c cs, v.text = c :: cs ∧ isGap c = false ∧ c ≠ '[' ∧ c ≠ '\x7b' := by
  cases v with
  | string s =>
      obtain ⟨c, cs, text, rfl | rfl⟩ := exists_stringText s
      · exact ⟨_, cs, text, by decide, by decide, by decide⟩
      · exact ⟨_, cs, text, by decide, by decide, by decide⟩
  | integer i =>
      obtain ⟨c, cs, text, begins⟩ := exists_ofInt i
      have blank := ne_of_begins begins (d := ' ') (by decide) (by decide)
      have tab := ne_of_begins begins (d := '\t') (by decide) (by decide)
      refine ⟨c, cs, text, by simp [isGap, blank, tab], ?_, ?_⟩
      · exact ne_of_begins begins (by decide) (by decide)
      · exact ne_of_begins begins (by decide) (by decide)

lemma readScalar_text {v : Scalar} (fits : v.Fits) (rest : List Char) :
    readScalar (v.text ++ '\n' :: rest) = some (v.value, '\n' :: rest) := by
  cases v with
  | string s =>
      have read := readString_stringText s (unquoted_newline rest)
      obtain ⟨c, cs, text, quote⟩ := exists_stringText s
      rw [Scalar.text]
      rw [text, List.cons_append] at read ⊢
      rw [readScalar, if_pos (by simpa using quote), read]
      rfl
  | integer i =>
      have read := readNumeric_ofInt fits.1 fits.2 rest
      obtain ⟨c, cs, text, begins⟩ := exists_ofInt i
      have basic := ne_of_begins begins (d := '"') (by decide) (by decide)
      have literal := ne_of_begins begins (d := '\x27') (by decide) (by decide)
      have no_true := ne_of_begins begins (d := 't') (by decide) (by decide)
      have no_false := ne_of_begins begins (d := 'f') (by decide) (by decide)
      rw [Scalar.text]
      rw [text, List.cons_append] at read ⊢
      rw [readScalar, if_neg (by simp [basic, literal]), if_neg no_true, if_neg no_false, read]
      rfl

/-- **The value of a pair is read back**, up to the end of its line. -/
lemma readAnyValue_text {v : Scalar} (fits : v.Fits) (rest : List Char) :
    readAnyValue (v.text ++ '\n' :: rest) = some (v.value, '\n' :: rest) := by
  have read := readScalar_text fits rest
  obtain ⟨c, cs, text, -, bracket, brace⟩ := v.exists_text
  rw [text, List.cons_append] at read ⊢
  rw [readAnyValue, readValue.eq_def]
  dsimp only
  split
  · rename_i same _
    exact absurd (List.cons.inj same).1 bracket
  · rename_i same _
    exact absurd (List.cons.inj same).1 brace
  · exact read

/-! ## Lines -/

/-- **A text whose lines lead from one draft to another**, whatever comes after each of them. -/
inductive Leads : Draft → List Char → Draft → Prop
  | done (d : Draft) : Leads d [] d
  | line {d e f : Draft} {line text : List Char} (some_ : line ≠ [])
      (read : ∀ rest, d.readLine (line ++ rest) = some (e, rest)) (more : Leads e text f) : Leads d (line ++ text) f

namespace Leads

variable {d e f : Draft} {text more : List Char}

/-- One line. -/
lemma single (some_ : text ≠ []) (read : ∀ rest, d.readLine (text ++ rest) = some (e, rest)) : Leads d text e := by
  have one := Leads.line some_ read (.done e)
  rwa [List.append_nil] at one

lemma append (before : Leads d text e) (after : Leads e more f) : Leads d (text ++ more) f := by
  induction before with
  | done d => exact after
  | line some_ read _ ih =>
      rw [List.append_assoc]
      exact .line some_ read (ih after)

lemma eq_of_nil (leads : Leads d text e) (none : text = []) : d = e := by
  cases leads with
  | done => rfl
  | line some_ read more => exact absurd (List.append_eq_nil_iff.mp none).1 some_

/-- **The draft at the end is the one that is read.** -/
lemma read (leads : Leads d text e) {steps : ℕ} (enough : text.length ≤ steps) (some_ : text ≠ []) :
    d.read steps text = some e := by
  induction leads generalizing steps with
  | done d => exact absurd rfl some_
  | @line d next e line text line_some read more ih =>
      have long := List.length_pos_iff.mpr line_some
      rw [List.length_append] at enough
      obtain ⟨steps, rfl⟩ : ∃ k, steps = k + 1 := ⟨steps - 1, by omega⟩
      rw [Draft.read, read text]
      simp only [bind, Option.bind]
      by_cases last : text = []
      · rw [if_pos (by simpa using last), more.eq_of_nil last]
      · rw [if_neg (by simpa using last), ih (by omega) last]

end Leads

/-! ## The lines of a section -/

lemma readLineEnd_newline (rest : List Char) : readLineEnd ('\n' :: rest) = some rest := rfl

/-- A blank line changes nothing. -/
lemma leads_blank (d : Draft) : Leads d ['\n'] d :=
  .single (List.cons_ne_nil _ _) fun _ => rfl

/-- **A pair is added** to the table of the last header. -/
lemma leads_pair {d e : Draft} {pair : String × Scalar} (fits : pair.2.Fits)
    (added : d.addPair [pair.1] pair.2.value = some e) : Leads d (pairText pair) e := by
  obtain ⟨c, cs, text, first⟩ := exists_keyText pair.1
  refine .single (by simp [pairText, text]) fun rest => ?_
  have line : pairText pair ++ rest = keyText pair.1 ++ (' ' :: '=' :: ' ' :: (pair.2.text ++ '\n' :: rest)) := by
    simp [pairText]
  have key : readKey (keyText pair.1 ++ (' ' :: '=' :: ' ' :: (pair.2.text ++ '\n' :: rest)))
      = some ([pair.1], '=' :: ' ' :: (pair.2.text ++ '\n' :: rest)) :=
    readParts_pathText (List.cons_ne_nil pair.1 []) (by simp [maxNesting]) (by simp [isBare])
      (by simp [skipGap, isGap])
  have gap : skipGap (' ' :: (pair.2.text ++ '\n' :: rest)) = pair.2.text ++ '\n' :: rest := by
    obtain ⟨c, cs, value, no_gap, -⟩ := pair.2.exists_text
    rw [value, List.cons_append, skipGap, List.dropWhile_cons_of_pos (by decide),
      List.dropWhile_cons_of_neg (by simpa using no_gap)]
  have read : d.readPair (keyText pair.1 ++ (' ' :: '=' :: ' ' :: (pair.2.text ++ '\n' :: rest)))
      = some (e, rest) := by
    simp only [Draft.readPair, key, gap, readAnyValue_text fits, readLineEnd_newline, added, bind, Option.bind]
  rw [line, Draft.readLine, skipGap_keyText]
  rw [text, List.cons_append] at read ⊢
  split
  · contradiction
  · rename_i same
    exact absurd (List.cons.inj same).1 (first '[' (by decide) (by decide) (by decide))
  · rename_i same
    obtain ⟨rfl, rfl⟩ := List.cons.inj same
    have no_comment := first '#' (by decide) (by decide) (by decide)
    have no_feed := first '\n' (by decide) (by decide) (by decide)
    have no_return := first '\r' (by decide) (by decide) (by decide)
    rw [if_neg (by simp [no_comment, no_feed, no_return])]
    exact read

/-- **A header opens its table.** -/
lemma leads_header {d e : Draft} {path : List String} (named : path ≠ []) (shallow : path.length ≤ maxNesting)
    (opened : d.addHeader Rows.openTable path = some e) : Leads d ('[' :: (pathText path ++ [']', '\n'])) e := by
  refine .single (List.cons_ne_nil _ _) fun rest => ?_
  have key : readKey (pathText path ++ (']' :: '\n' :: rest)) = some (path, ']' :: '\n' :: rest) :=
    readParts_pathText named shallow (by simp [isBare]) (by simp [skipGap, isGap])
  have line : '[' :: (pathText path ++ [']', '\n']) ++ rest = '[' :: (pathText path ++ (']' :: '\n' :: rest)) := by
    simp
  have read : d.readHeader (pathText path ++ (']' :: '\n' :: rest)) = some (e, rest) := by
    obtain ⟨c, cs, text, first⟩ := exists_pathText named
    rw [Draft.readHeader]
    · simp only [key, readLineEnd_newline, opened, bind, Option.bind]
    · intro more same
      rw [text, List.cons_append] at same
      exact first '[' (by decide) (by decide) (by decide) (List.cons.inj same).1
  rw [line, Draft.readLine]
  exact read

/-- A section whose text is accepted: it has a name, is not nested too deep, and its integers fit. -/
structure Section.Legible (s : Section) : Prop where
  named : s.path ≠ []
  shallow : s.path.length ≤ maxNesting
  fits : ∀ p ∈ s.pairs, p.2.Fits

lemma leads_pairs {path : List String} {pairs : List (String × Scalar)} (fits : ∀ p ∈ pairs, p.2.Fits)
    {rows made : Rows}
    (written : pairs.foldlM (fun rows p => Rows.descend (Rows.assign p.2.value [p.1]) path rows) rows = some made) :
    Leads ⟨rows, path⟩ (pairs.flatMap pairText) ⟨made, path⟩ := by
  induction pairs generalizing rows with
  | nil =>
      obtain rfl : rows = made := Option.some.inj written
      exact .done _
  | cons p rest ih =>
      obtain ⟨first, others⟩ := List.forall_mem_cons.mp fits
      rw [List.foldlM_cons, Option.bind_eq_bind, Option.bind_eq_some_iff] at written
      obtain ⟨next, assigned, written⟩ := written
      have added : Draft.addPair ⟨rows, path⟩ [p.1] p.2.value = some ⟨next, path⟩ := by
        simp only [Draft.addPair, assigned, bind, Option.bind]
      exact (leads_pair first added).append (ih others written)

/-- **The text of a section** does what the section does, and its table is then the last one. -/
lemma leads_section {s : Section} (legible : s.Legible) {d : Draft} {made : Rows}
    (written : d.rows.write s = some made) : Leads d s.text ⟨made, s.path⟩ := by
  obtain ⟨above, key, split⟩ := (List.eq_nil_or_concat s.path).resolve_left legible.named
  rw [List.concat_eq_append] at split
  rw [Rows.write_eq split, Option.bind_eq_some_iff] at written
  obtain ⟨opened, header, pairs⟩ := written
  have added : d.addHeader Rows.openTable s.path = some ⟨opened, s.path⟩ := by
    rw [Draft.addHeader, split]
    simp [header]
  have text : s.text = '[' :: (pathText s.path ++ [']', '\n']) ++ s.pairs.flatMap pairText := by
    simp [Section.text]
  rw [text]
  exact (leads_header legible.named legible.shallow added).append (leads_pairs legible.fits pairs)

/-! ## Documents -/

lemma leads_document {first : Section} {rest : List Section} (legible : ∀ s ∈ first :: rest, s.Legible) {d : Draft}
    {made : Rows} (written : d.rows.writeAll (first :: rest) = some made) :
    ∃ path, Leads d (documentText (first :: rest)) ⟨made, path⟩ := by
  induction rest generalizing first d with
  | nil =>
      rw [Rows.writeAll, List.foldlM_cons, Option.bind_eq_bind, Option.bind_eq_some_iff] at written
      obtain ⟨rows, written, same⟩ := written
      obtain rfl : rows = made := Option.some.inj same
      exact ⟨first.path, leads_section (legible first List.mem_cons_self) written⟩
  | cons second rest ih =>
      obtain ⟨first_legible, rest_legible⟩ := List.forall_mem_cons.mp legible
      rw [Rows.writeAll, List.foldlM_cons, Option.bind_eq_bind, Option.bind_eq_some_iff] at written
      obtain ⟨rows, one, written⟩ := written
      obtain ⟨path, others⟩ := ih rest_legible (d := ⟨rows, first.path⟩) written
      have text : documentText (first :: second :: rest)
          = first.text ++ (['\n'] ++ documentText (second :: rest)) := by
        rw [documentText]
        · rfl
        · exact List.cons_ne_nil _ _
      rw [text]
      exact ⟨path, (leads_section first_legible one).append ((leads_blank _).append others)⟩

/-- **What is read of a document** is what its sections make of nothing. -/
theorem parse?_documentText {first : Section} {rest : List Section} (legible : ∀ s ∈ first :: rest, s.Legible)
    {made : Rows} (written : Rows.writeAll [] (first :: rest) = some made) :
    parse? (documentText (first :: rest)) = some (finishRows made) := by
  obtain ⟨path, lines⟩ := leads_document legible (d := Draft.empty) written
  obtain ⟨more, text⟩ : ∃ more, documentText (first :: rest) = '[' :: more := by
    cases rest with
    | nil => exact ⟨_, rfl⟩
    | cons second rest => exact ⟨_, by rw [documentText, Section.text, List.cons_append]; exact List.cons_ne_nil _ _⟩
  have no_mark : skipMark (documentText (first :: rest)) = documentText (first :: rest) := by
    rw [text, skipMark]
    simp
  have read := lines.read (Nat.le_succ _) (by rw [text]; exact List.cons_ne_nil _ _)
  rw [parse?, no_mark]
  simp only [read, bind, Option.bind]

end ControlPlane.Toml
