import Mathlib
import ControlPlane.Json.Decoder

/-!
# Compact texts are read back

A value is written as one compact text (`Value.chars`), and a text is read through its tree
(`Tree.ofText`).  This file says that the tree of a value's text is the tree that the value itself
has, whatever stands after the text, as long as it does not go on with a number.

* `Value.tree` — the tree of a value, by recursion on the value.
* `Number.Stands` — a number whose text is cut off and read in one step; **`Number.stands_int`**
  says that whole numbers of sixty-four bits do.
* `scan_chars` — the scanner on the text of a value.  Four steps for each character are enough.
* **`decode_chars`** — decoding the text of a value is decoding its tree.

A number takes part by `Number.Stands`, which is shown here for integers; for doubles, whose texts are read
with two roundings, `Number.stands_double` shows it on its own.
-/

namespace ControlPlane

/-! ## Digits -/

namespace Decimal

lemma digit_spec : ∀ d < 10, isDigit (digit d) = true ∧ value (digit d) = d := by decide

lemma ofNat_ne_nil (n : ℕ) : ofNat n ≠ [] := by
  rw [ofNat]
  split_ifs <;> simp

lemma isDigit_of_mem_ofNat (n : ℕ) : ∀ c ∈ ofNat n, isDigit c = true := by
  induction n using Nat.strongRecOn with
  | _ n ih =>
      rw [ofNat]
      split_ifs with h
      · simp only [List.mem_singleton, forall_eq]
        exact (digit_spec n h).1
      · intro c hc
        rcases List.mem_append.mp hc with hc | hc
        · exact ih (n / 10) (by omega) c hc
        · rw [List.mem_singleton.mp hc]
          exact (digit_spec _ (Nat.mod_lt n (by omega))).1

lemma toNat_ofNat (n : ℕ) : toNat (ofNat n) = n := by
  induction n using Nat.strongRecOn with
  | _ n ih =>
      rw [ofNat]
      split_ifs with h
      · simp [toNat, (digit_spec n h).2]
      · have step := ih (n / 10) (by omega)
        unfold toNat at step ⊢
        rw [List.foldl_append, step, List.foldl_cons, List.foldl_nil,
          (digit_spec _ (Nat.mod_lt n (by omega))).2]
        omega

/-- Only zero is written with a leading zero. -/
lemma ofNat_eq_zero_cons {n : ℕ} {cs : List Char} (h : ofNat n = '0' :: cs) : cs = [] := by
  induction n using Nat.strongRecOn generalizing cs with
  | _ n ih =>
      rw [ofNat] at h
      split_ifs at h with small
      · exact (List.cons.inj h).2.symm
      · obtain ⟨c, rest, eq⟩ := List.exists_cons_of_ne_nil (ofNat_ne_nil (n / 10))
        rw [eq, List.cons_append] at h
        have first : c = '0' := (List.cons.inj h).1
        subst first
        have alone := ih (n / 10) (by omega) eq
        rw [alone] at eq
        have zero : n / 10 = 0 := by rw [← toNat_ofNat (n / 10), eq]; rfl
        omega

end Decimal

namespace Json

/-! ## Strings -/

/-- The short escapes are undone by `unescape?`. -/
lemma unescape?_of_shortEscape? {c e : Char} (h : shortEscape? c = some e) :
    unescape? e = some c := by
  unfold shortEscape? at h
  split_ifs at h with h1 h2 h3 h4 h5 h6 h7 <;> simp only [Option.some.injEq] at h <;> subst h
  · subst h1; rfl
  · subst h2; rfl
  · subst h3; rfl
  · subst h4; rfl
  · subst h5; rfl
  · rw [show c = Char.ofNat 8 by rw [← h6, Char.ofNat_toNat]]; rfl
  · rw [show c = Char.ofNat 12 by rw [← h7, Char.ofNat_toNat]]; rfl

/-- What has no short escape is neither a quote nor a backslash. -/
lemma ne_of_shortEscape?_eq_none {c : Char} (h : shortEscape? c = none) : c ≠ '"' ∧ c ≠ '\\' := by
  constructor <;> rintro rfl <;> simp [shortEscape?] at h

/-- The four digits of a control character are read back as its number. -/
lemma hexQuad?_hexFour :
    ∀ n < 0x20, ∃ a b c d, hexFour n = [a, b, c, d] ∧ hexQuad? a b c d = some n := by
  intro n hn
  refine ⟨_, _, _, _, rfl, ?_⟩
  revert n
  decide

lemma readString_escape (c : Char) (cs : List Char) :
    readString (escape c ++ cs) = before c (readString cs) := by
  unfold escape
  split
  next e h =>
    rw [List.cons_append, List.cons_append, List.nil_append, readString.eq_def]
    simp [unescape?_of_shortEscape? h]
  next h =>
    obtain ⟨quote, backslash⟩ := ne_of_shortEscape?_eq_none h
    split
    next low =>
      obtain ⟨a, b, d, e, digits, value⟩ := hexQuad?_hexFour c.toNat low
      have small : isLowSurrogate c.toNat = false ∧ isHighSurrogate c.toNat = false := by
        simp only [isLowSurrogate, isHighSurrogate, Bool.and_eq_false_iff, decide_eq_false_iff_not]
        omega
      rw [digits]
      simp [readString, unescape?, value, small]
    next high =>
      rw [List.cons_append, List.nil_append, readString.eq_def]
      simp [quote, backslash, high]

lemma skipString_escape (c : Char) (cs : List Char) :
    skipString (escape c ++ cs) = skipString cs := by
  unfold escape
  split
  next e h =>
    rw [List.cons_append, List.cons_append, List.nil_append, skipString.eq_def]
    simp [unescape?_of_shortEscape? h]
  next h =>
    obtain ⟨quote, backslash⟩ := ne_of_shortEscape?_eq_none h
    split
    next low =>
      obtain ⟨a, b, d, e, digits, value⟩ := hexQuad?_hexFour c.toNat low
      rw [digits]
      simp [skipString, unescape?, value]
    next high =>
      rw [List.cons_append, List.nil_append, skipString.eq_def]
      simp [quote, backslash, high]

/-! ## Numbers -/

/-- A text that does not go on with a number. -/
def Clear : List Char → Prop
  | [] => True
  | c :: _ => Decimal.isDigit c = false ∧ c ≠ '.' ∧ c ≠ 'e' ∧ c ≠ 'E'

lemma takeDigits_append {digits rest : List Char} (h : ∀ c ∈ digits, Decimal.isDigit c = true)
    (clear : Clear rest) : takeDigits (digits ++ rest) = (digits, rest) := by
  have stops : rest.takeWhile Decimal.isDigit = [] ∧ rest.dropWhile Decimal.isDigit = rest := by
    cases rest with
    | nil => simp
    | cons c cs => simp [clear.1]
  rw [takeDigits, List.takeWhile_append_of_pos h, List.dropWhile_append_of_pos h, stops.1, stops.2,
    List.append_nil]

lemma readWhole_ofNat (n : ℕ) {rest : List Char} (clear : Clear rest) :
    readWhole (Decimal.ofNat n ++ rest) = .ok (Decimal.ofNat n, rest) := by
  rw [readWhole, takeDigits_append (Decimal.isDigit_of_mem_ofNat n) clear]
  split
  next h => exact absurd (Prod.ext_iff.mp h).1 (Decimal.ofNat_ne_nil n)
  next h =>
    have := Decimal.ofNat_eq_zero_cons (Prod.ext_iff.mp h).1
    simp at this
  next h =>
    obtain ⟨rfl, rfl⟩ := Prod.mk.inj h
    rfl

lemma readFraction_clear {rest : List Char} (clear : Clear rest) :
    readFraction rest = .ok (none, rest) := by
  cases rest with
  | nil => rfl
  | cons c cs =>
      rw [readFraction]
      intro cs' h
      exact clear.2.1 (List.cons.inj h).1

lemma readExponent_clear {rest : List Char} (clear : Clear rest) :
    readExponent rest = .ok (none, rest) := by
  cases rest with
  | nil => rfl
  | cons c cs => simp [readExponent, clear.2.2.1, clear.2.2.2]

/-- **A whole number is cut off its text.** -/
lemma readNumberText_ofInt (i : ℤ) {rest : List Char} (clear : Clear rest) :
    readNumberText (Decimal.ofInt i ++ rest)
      = .ok (⟨decide (i < 0), Decimal.ofNat i.natAbs, none, none⟩, rest) := by
  cases i with
  | ofNat n =>
      have noSign : ∀ r, Decimal.ofNat n ++ rest ≠ '-' :: r := by
        intro r h
        obtain ⟨c, cs, eq⟩ := List.exists_cons_of_ne_nil (Decimal.ofNat_ne_nil n)
        have digit := Decimal.isDigit_of_mem_ofNat n c (by simp [eq])
        rw [eq, List.cons_append] at h
        rw [(List.cons.inj h).1] at digit
        exact absurd digit (by decide)
      rw [Decimal.ofInt, readNumberText]
      · simp [readWhole_ofNat n clear, readFraction_clear clear, readExponent_clear clear, bind,
          Except.bind, pure, Except.pure]
      · exact noSign
  | negSucc n =>
      simp [readNumberText, Decimal.ofInt, readWhole_ofNat (n + 1) clear, readFraction_clear clear,
        readExponent_clear clear, bind, Except.bind, pure, Except.pure, Int.natAbs]

/-- Whole numbers of sixty-four bits, signed or not. -/
def IsWord (i : ℤ) : Prop := -0x8000000000000000 ≤ i ∧ i ≤ 0xFFFFFFFFFFFFFFFF

lemma value_ofInt {i : ℤ} (h : IsWord i) :
    NumberText.value ⟨decide (i < 0), Decimal.ofNat i.natAbs, none, none⟩ = .ok (.int i) := by
  obtain ⟨low, high⟩ := h
  by_cases neg : i < 0
  · have bound : i.natAbs ≤ 0x8000000000000000 := by omega
    have value : -(i.natAbs : ℤ) = i := by omega
    simp only [NumberText.value, Decimal.toNat_ofNat, neg, bound, value]
    simp [show i ≠ 0 by omega]
  · have bound : i.natAbs ≤ maxWord := by unfold maxWord; omega
    have value : (i.natAbs : ℤ) = i := by omega
    simp only [NumberText.value, Decimal.toNat_ofNat, neg, bound, value]
    simp

/-! ## Trees of values -/

/-- The tree of a number's text. -/
def Number.tree (n : Number) : Tree := (Tree.ofText n.chars).1

mutual

/-- The tree of a value's compact text. -/
def Value.tree : Value → Tree
  | .null => .null
  | .bool b => .bool b
  | .number n => n.tree
  | .string s => .string (.ok s)
  | .array items => .array (itemTrees items)
  | .object members => .object (memberTrees members)

def itemTrees : List Value → Items
  | [] => .done .closed
  | item :: rest => .cons item.tree (itemTrees rest)

def memberTrees : List (String × Value) → Members
  | [] => .done .closed
  | (key, value) :: rest => .cons (.ok key) value.tree (memberTrees rest)

end

mutual

/-- All numbers in a value have a property. -/
def Value.AllNumbers (P : Number → Prop) : Value → Prop
  | .number n => P n
  | .array items => AllInItems P items
  | .object members => AllInMembers P members
  | _ => True

def AllInItems (P : Number → Prop) : List Value → Prop
  | [] => True
  | item :: rest => item.AllNumbers P ∧ AllInItems P rest

def AllInMembers (P : Number → Prop) : List (String × Value) → Prop
  | [] => True
  | (_, value) :: rest => value.AllNumbers P ∧ AllInMembers P rest

end

/-- **A number stands for itself**: its text begins like that of a value, and the scanner cuts it off. -/
structure Number.Stands (n : Number) : Prop where
  begins : ∃ c cs, n.chars = c :: cs ∧ isGap c = false ∧ c ≠ ']'
  scan_eq : ∀ steps rest, Clear rest → scan (steps + 1) (n.chars ++ rest) = (n.tree, some rest)

/-! ## The scanner on the text of a value -/

lemma skipGap_cons {c : Char} (cs : List Char) (h : isGap c = false) :
    skipGap (c :: cs) = c :: cs := by
  simp [skipGap, h]

lemma readString_quoted (s : List Char) (rest : List Char) :
    readString (s.flatMap escape ++ '"' :: rest) = .ok (s, rest) := by
  induction s with
  | nil => rw [List.flatMap_nil, List.nil_append, readString.eq_def]; simp
  | cons c cs ih => rw [List.flatMap_cons, List.append_assoc, readString_escape, ih, before]

lemma skipString_quoted (s : List Char) (rest : List Char) :
    skipString (s.flatMap escape ++ '"' :: rest) = .ok rest := by
  induction s with
  | nil => rw [List.flatMap_nil, List.nil_append, skipString.eq_def]; simp
  | cons c cs ih => rw [List.flatMap_cons, List.append_assoc, skipString_escape, ih]

lemma scanString_quoted (s : String) (rest : List Char) :
    scanString (s.toList.flatMap escape ++ '"' :: rest) = (.string (.ok s), some rest) := by
  simp [scanString, skipString_quoted, readString_quoted, Except.map]

lemma scanKey_quoted (s : String) (rest : List Char) :
    scanKey (s.toList.flatMap escape ++ '"' :: rest) = .ok (.ok s, rest) := by
  simp [scanKey, skipString_quoted, readString_quoted, Except.map]

lemma Value.begins : ∀ {v : Value}, v.AllNumbers Number.Stands →
    ∃ c cs, v.chars = c :: cs ∧ isGap c = false ∧ c ≠ ']'
  | .null, _ => ⟨'n', "ull".toList, by simp [Value.chars], by decide, by decide⟩
  | .bool true, _ => ⟨'t', "rue".toList, by simp [Value.chars], by decide, by decide⟩
  | .bool false, _ => ⟨'f', "alse".toList, by simp [Value.chars], by decide, by decide⟩
  | .number n, h => by
      rw [Value.AllNumbers] at h
      rw [Value.chars]
      exact h.begins
  | .string s, _ => ⟨'"', _, by rw [Value.chars, quoted], by decide, by decide⟩
  | .array items, _ => ⟨'[', _, by rw [Value.chars], by decide, by decide⟩
  | .object members, _ => ⟨'\x7b', _, by rw [Value.chars], by decide, by decide⟩

/-- The items after an item, with the comma before them. -/
def itemTail : List Value → List Char
  | [] => []
  | item :: rest => ',' :: itemChars (item :: rest)

lemma itemChars_cons (item : Value) (rest : List Value) :
    itemChars (item :: rest) = item.chars ++ itemTail rest := by
  cases rest <;> simp [itemChars, itemTail]

/-- The members after a member, with the comma before them. -/
def memberTail : List (String × Value) → List Char
  | [] => []
  | member :: rest => ',' :: memberChars (member :: rest)

lemma memberChars_cons (key : String) (value : Value) (rest : List (String × Value)) :
    memberChars ((key, value) :: rest)
      = '"' :: (key.toList.flatMap escape ++ '"' :: ':' :: (value.chars ++ memberTail rest)) := by
  cases rest <;> simp [memberChars, memberTail, quoted]

lemma Value.chars_length_pos {v : Value} (h : v.AllNumbers Number.Stands) : 0 < v.chars.length := by
  obtain ⟨c, cs, eq, -⟩ := Value.begins h
  simp [eq]

-- Four steps for each character of a text are more than the scanner takes: a value, an item and a
-- member each cost one step before their first character is looked at.
mutual

theorem scan_chars : ∀ (v : Value), v.AllNumbers Number.Stands → ∀ (steps : ℕ) (rest : List Char),
    4 * v.chars.length ≤ steps → Clear rest → scan steps (v.chars ++ rest) = (v.tree, some rest)
  | v, h, 0, _, enough, _ => absurd (Value.chars_length_pos h) (by omega)
  | .null, _, steps + 1, rest, _, _ => by
      simp [Value.chars, Value.tree, scan, skipGap, isGap, scanWord, readWord]
  | .bool true, _, steps + 1, rest, _, _ => by
      simp [Value.chars, Value.tree, scan, skipGap, isGap, scanWord, readWord]
  | .bool false, _, steps + 1, rest, _, _ => by
      simp [Value.chars, Value.tree, scan, skipGap, isGap, scanWord, readWord]
  | .number n, h, steps + 1, rest, _, clear => by
      rw [Value.AllNumbers] at h
      simpa only [Value.chars, Value.tree] using h.scan_eq steps rest clear
  | .string s, _, steps + 1, rest, _, _ => by
      simp [Value.chars, Value.tree, quoted, scan, skipGap, isGap, scanString_quoted]
  | .array [], h, steps + 1, rest, enough, _ => by
      obtain ⟨steps, rfl⟩ : ∃ k, steps = k + 1 := ⟨steps - 1, by simp [Value.chars] at enough; omega⟩
      simp [Value.chars, Value.tree, itemChars, itemTrees, scan, scanFirstItem, skipGap, isGap]
  | .array (item :: items), h, steps + 1, rest, enough, _ => by
      rw [Value.AllNumbers] at h
      simp only [Value.chars, List.length_cons, List.length_append, List.length_nil] at enough
      obtain ⟨steps, rfl⟩ : ∃ k, steps = k + 1 := ⟨steps - 1, by omega⟩
      have inner := scanItem_chars (item :: items) (by simp) h steps rest (by omega)
      obtain ⟨c, cs, first, gap, bracket⟩ := Value.begins (show item.AllNumbers _ from h.1)
      rw [itemChars_cons, first, List.cons_append, List.cons_append] at inner
      have step : scanFirstItem (steps + 1) (itemChars (item :: items) ++ ']' :: rest)
          = (itemTrees (item :: items), some rest) := by
        rw [itemChars_cons, first, List.cons_append, List.cons_append, scanFirstItem,
          skipGap_cons _ gap]
        simpa only [bracket, if_false] using inner
      simp [Value.chars, Value.tree, scan, skipGap, isGap, step]
  | .object [], h, steps + 1, rest, enough, _ => by
      obtain ⟨steps, rfl⟩ : ∃ k, steps = k + 1 := ⟨steps - 1, by simp [Value.chars] at enough; omega⟩
      simp [Value.chars, Value.tree, memberChars, memberTrees, scan, scanFirstMember, skipGap, isGap]
  | .object ((key, value) :: members), h, steps + 1, rest, enough, _ => by
      rw [Value.AllNumbers] at h
      simp only [Value.chars, List.length_cons, List.length_append, List.length_nil,
        memberChars_cons] at enough
      obtain ⟨steps, rfl⟩ : ∃ k, steps = k + 1 := ⟨steps - 1, by omega⟩
      have inner := scanMember_chars ((key, value) :: members) (by simp) h steps rest
        (by simp only [memberChars_cons, List.length_cons, List.length_append]; omega)
      rw [memberChars_cons, List.tail_cons] at inner
      rw [Value.chars, memberChars_cons]
      simp only [List.append_assoc, List.cons_append, List.nil_append] at inner ⊢
      simp [Value.tree, scan, scanFirstMember, skipGap, isGap, inner]

theorem scanItem_chars : ∀ (items : List Value), items ≠ [] → AllInItems Number.Stands items →
    ∀ (steps : ℕ) (rest : List Char), 4 * (itemChars items).length + 2 ≤ steps →
    scanItem steps (itemChars items ++ ']' :: rest) = (itemTrees items, some rest)
  | [], ne, _, _, _, _ => absurd rfl ne
  | _ :: _, _, _, 0, _, enough => by omega
  | [item], _, h, steps + 1, rest, enough => by
      rw [AllInItems] at h
      simp only [itemChars_cons, itemTail, List.append_nil] at enough ⊢
      have first := scan_chars item h.1 steps (']' :: rest) (by omega) (by simp [Clear]; decide)
      obtain ⟨steps, rfl⟩ : ∃ k, steps = k + 1 := ⟨steps - 1, by omega⟩
      simp [scanItem, first, scanItems, skipGap, isGap, itemTrees]
  | item :: next :: items, _, h, steps + 1, rest, enough => by
      rw [AllInItems] at h
      rw [itemChars_cons, itemTail] at enough ⊢
      simp only [List.length_cons, List.length_append] at enough
      have first := scan_chars item h.1 steps (',' :: (itemChars (next :: items) ++ ']' :: rest))
        (by omega) (by simp [Clear]; decide)
      obtain ⟨steps, rfl⟩ : ∃ k, steps = k + 1 := ⟨steps - 1, by omega⟩
      have others := scanItem_chars (next :: items) (by simp) h.2 steps rest (by omega)
      obtain ⟨c, cs, begins, gap, bracket⟩ := Value.begins (show next.AllNumbers _ from h.2.1)
      have step : scanItems (steps + 1) (',' :: (itemChars (next :: items) ++ ']' :: rest))
          = (itemTrees (next :: items), some rest) := by
        rw [itemChars_cons, begins, List.cons_append, List.cons_append] at others ⊢
        rw [scanItems, skipGap_cons _ (by decide)]
        simp only [skipGap_cons _ gap]
        simpa [bracket] using others
      simp [scanItem, first, step, itemTrees]

theorem scanMember_chars : ∀ (members : List (String × Value)), members ≠ [] →
    AllInMembers Number.Stands members →
    ∀ (steps : ℕ) (rest : List Char), 4 * (memberChars members).length ≤ steps →
    scanMember steps ((memberChars members).tail ++ '\x7d' :: rest)
      = (memberTrees members, some rest)
  | [], ne, _, _, _, _ => absurd rfl ne
  | (key, value) :: _, _, _, 0, _, enough => by simp [memberChars_cons] at enough
  | [(key, value)], _, h, steps + 1, rest, enough => by
      rw [AllInMembers] at h
      simp only [memberChars_cons, memberTail, List.append_nil, List.length_cons,
        List.length_append] at enough
      have first := scan_chars value h.1 steps ('\x7d' :: rest) (by omega) (by simp [Clear]; decide)
      obtain ⟨steps, rfl⟩ : ∃ k, steps = k + 1 := ⟨steps - 1, by omega⟩
      simp [memberChars_cons, memberTail, scanMember, scanKey_quoted, first, scanMembers, skipGap,
        isGap, memberTrees]
  | (key, value) :: (nextKey, nextValue) :: members, _, h, steps + 1, rest, enough => by
      rw [AllInMembers] at h
      rw [memberChars_cons, memberTail] at enough ⊢
      simp only [List.length_cons, List.length_append] at enough
      have first := scan_chars value h.1 steps
        (',' :: (memberChars ((nextKey, nextValue) :: members) ++ '\x7d' :: rest))
        (by omega) (by simp [Clear]; decide)
      obtain ⟨steps, rfl⟩ : ∃ k, steps = k + 1 := ⟨steps - 1, by omega⟩
      have others := scanMember_chars ((nextKey, nextValue) :: members) (by simp) h.2 steps rest
        (by omega)
      have step : scanMembers (steps + 1)
          (',' :: (memberChars ((nextKey, nextValue) :: members) ++ '\x7d' :: rest))
          = (memberTrees ((nextKey, nextValue) :: members), some rest) := by
        rw [memberChars_cons, List.tail_cons] at others
        rw [memberChars_cons, List.cons_append, scanMembers, skipGap_cons _ (by decide)]
        simpa [skipGap_cons _ (show isGap '"' = false by decide)] using others
      rw [List.tail_cons]
      simp only [List.append_assoc, List.cons_append]
      simp [scanMember, scanKey_quoted, skipGap, isGap, first, step, memberTrees]

end

/-! ## Whole texts -/

theorem ofText_chars {v : Value} (h : v.AllNumbers Number.Stands) :
    Tree.ofText v.chars = (v.tree, some []) := by
  have scanned := scan_chars v h (4 * v.chars.length + 4) [] (by omega) trivial
  rwa [List.append_nil] at scanned

/-- **What is written is read back**, as far as trees go. -/
theorem decode_chars {v : Value} (h : v.AllNumbers Number.Stands) (d : Decoder α) :
    decode d v.chars = d (maxDepth + 1) v.tree := by
  simp only [decode, ofText_chars h, bind, Except.bind]
  cases d (maxDepth + 1) v.tree <;> simp [skipGap, pure, Except.pure]

/-! ## Whole numbers of sixty-four bits -/

lemma Number.begins_ofInt (i : ℤ) :
    ∃ c cs, Decimal.ofInt i = c :: cs ∧ (c = '-' ∨ Decimal.isDigit c = true) := by
  cases i with
  | ofNat n =>
      obtain ⟨c, cs, eq⟩ := List.exists_cons_of_ne_nil (Decimal.ofNat_ne_nil n)
      exact ⟨c, cs, eq, .inr (Decimal.isDigit_of_mem_ofNat n c (by simp [eq]))⟩
  | negSucc n => exact ⟨'-', _, rfl, .inl rfl⟩

lemma ne_of_begins {c : Char} (h : c = '-' ∨ Decimal.isDigit c = true) :
    isGap c = false ∧ c ≠ ']' ∧ c ≠ '"' ∧ c ≠ '\x7b' ∧ c ≠ '[' ∧ c ≠ 'n' ∧ c ≠ 't' ∧ c ≠ 'f' := by
  rcases h with rfl | h
  · decide
  · refine ⟨?_, ?_, ?_, ?_, ?_, ?_, ?_, ?_⟩
    · simp only [isGap, Bool.or_eq_false_iff, decide_eq_false_iff_not]
      refine ⟨⟨⟨?_, ?_⟩, ?_⟩, ?_⟩ <;> (rintro rfl; revert h; decide)
    all_goals (rintro rfl; revert h; decide)

lemma scan_ofInt {i : ℤ} (h : IsWord i) (steps : ℕ) {rest : List Char} (clear : Clear rest) :
    scan (steps + 1) (Decimal.ofInt i ++ rest) = (.number (.ok (.int i)), some rest) := by
  obtain ⟨c, cs, eq, first⟩ := Number.begins_ofInt i
  obtain ⟨gap, -, quote, brace, bracket, n, t, f⟩ := ne_of_begins first
  have sign : (c = '-' || Decimal.isDigit c) = true := by simpa using first
  have number := readNumberText_ofInt i clear
  rw [eq, List.cons_append] at number ⊢
  rw [scan, skipGap_cons _ gap]
  simp only [quote, brace, bracket, n, t, f, if_false, sign, if_true, scanNumber, number,
    value_ofInt h]

lemma Number.tree_int {i : ℤ} (h : IsWord i) : (Number.int i).tree = .number (.ok (.int i)) := by
  have scanned := scan_ofInt h (4 * (Decimal.ofInt i).length + 3) (show Clear [] from trivial)
  rw [List.append_nil] at scanned
  rw [Number.tree, Number.chars, Tree.ofText, scanned]

lemma Number.stands_int {i : ℤ} (h : IsWord i) : (Number.int i).Stands := by
  refine ⟨?_, ?_⟩
  · obtain ⟨c, cs, eq, first⟩ := Number.begins_ofInt i
    obtain ⟨gap, bracket, -⟩ := ne_of_begins first
    exact ⟨c, cs, eq, gap, bracket⟩
  · intro steps rest clear
    rw [Number.tree_int h]
    exact scan_ofInt h steps clear

end Json

end ControlPlane
