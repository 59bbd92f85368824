import Mathlib

/-!
# The bytes of texts

A text is kept and sent as the bytes of its UTF-8 encoding.  Characters of ASCII have one byte each,
and the encoding of a character keeps the order of characters, whatever comes after it, so that texts
compare as their bytes do.

* `bytes`, `bytes_eq` — the bytes of a text, character by character.
* `bytes_ascii` — the bytes of a text of ASCII characters.
* `bytes_lt_iff` — the byte order of texts is the order of texts.
-/

namespace ControlPlane

/-- The bytes of a text. -/
def bytes (s : String) : List UInt8 := s.toUTF8.data.toList

/-- Each character has its own bytes. -/
lemma bytes_eq (s : String) : bytes s = s.toList.flatMap String.utf8EncodeChar := by
  have text := congrArg bytes (String.ofList_toList (s := s)).symm
  refine text.trans ?_
  simp only [bytes, String.toUTF8, String.toByteArray_ofList, List.utf8Encode,
    List.toList_data_toByteArray]

/-- A text of ASCII characters has one byte for each of them. -/
lemma bytes_ascii {s : String} (ascii : ∀ c ∈ s.toList, c.toNat < 128) :
    bytes s = s.toList.map fun c => c.val.toUInt8 := by
  have single : ∀ c ∈ s.toList, String.utf8EncodeChar c = [c.val.toUInt8] := by
    intro c member
    refine String.utf8EncodeChar_eq_singleton (Char.utf8Size_eq_one_iff.mpr ?_)
    exact UInt32.le_iff_toNat_le.mpr (Nat.le_of_lt_succ (ascii c member))
  rw [bytes_eq, List.flatMap_congr single, List.map_eq_flatMap]

/-! ## The order of bytes -/

/-- Two numbers in order have quotients in order, or equal quotients and remainders in order. -/
lemma div_mod_lt {v w : ℕ} (h : v < w) (k : ℕ) :
    v / k < w / k ∨ v / k = w / k ∧ v % k < w % k := by
  rcases (Nat.div_le_div_right (c := k) h.le).lt_or_eq with less | same
  · exact .inl less
  · refine .inr ⟨same, ?_⟩
    have first := Nat.div_add_mod v k
    have second := Nat.div_add_mod w k
    rw [same] at first
    omega

/-- **The encoding of characters keeps their order**, whatever bytes come after. -/
lemma utf8EncodeChar_lt {c d : Char} (h : c < d) (xs ys : List UInt8) :
    String.utf8EncodeChar c ++ xs < String.utf8EncodeChar d ++ ys := by
  have less : c.val.toNat < d.val.toNat := h
  have top : d.val.toNat < 0x110000 := by
    rcases d.valid with low | high
    · exact low.trans (by norm_num)
    · exact high.2
  unfold String.utf8EncodeChar
  generalize c.val.toNat = v at *
  generalize d.val.toNat = w at *
  -- the lengths of the two encodings, and then the first byte in which they differ
  have last := div_mod_lt less 64
  have third := div_mod_lt less 4096
  have second := div_mod_lt less 262144
  simp only
  split_ifs <;>
    simp (disch := omega) only [List.cons_append, List.nil_append, List.cons_lt_cons_iff,
      UInt8.lt_iff_toNat_lt, ← UInt8.toNat_inj, UInt8.toNat_ofNat', Nat.mod_eq_of_lt] <;>
    omega

lemma flatMap_encode_lt {xs ys : List Char} (h : xs < ys) :
    xs.flatMap String.utf8EncodeChar < ys.flatMap String.utf8EncodeChar := by
  induction h with
  | @nil d ys =>
      rw [List.flatMap_nil, List.flatMap_cons]
      obtain ⟨b, rest, encoded⟩ :=
        List.exists_cons_of_ne_nil (String.utf8EncodeChar_ne_nil (c := d))
      rw [encoded]
      exact List.nil_lt_cons _ _
  | rel less => exact utf8EncodeChar_lt less _ _
  | cons _ ih => exact List.append_left_lt ih

/-- **Texts compare as their bytes do.** -/
theorem bytes_lt_iff {a b : String} : bytes a < bytes b ↔ a < b := by
  have keeps : ∀ {a b : String}, a < b → bytes a < bytes b := by
    intro a b less
    rw [bytes_eq, bytes_eq]
    exact flatMap_encode_lt less
  constructor
  · intro less
    by_contra notLess
    rcases (not_lt.mp notLess).lt_or_eq with more | same
    · exact List.lt_asymm less (keeps more)
    · exact List.lt_irrefl _ (same ▸ less)
  · exact keeps

end ControlPlane
