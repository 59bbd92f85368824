import Mathlib
import ControlPlane.FileTree.Basic
import ControlPlane.Proofs.Text.Words

/-!
# Paths that lead down

A path that continues a directory by pieces none of which is `.` or `..` leads below this directory, to the
place that the names among its pieces make.

* `Path.names` — the names among the pieces of a path; `Path.names_push`, `Path.ofPieces_spec` — those of
  paths that are put together.
* `FileTree.follow_descends` — where pieces without dots lead.
* **`FileTree.exists_directory_of_push`** — a path that continues another one leads on from the directory to
  which that one leads.
-/

namespace ControlPlane

/-! ## Pieces -/

section Pieces

variable {sep : Char → Bool} {s p : List Char}

lemma pieces_ne_nil (sep : Char → Bool) (s : List Char) : pieces sep s ≠ [] := by
  cases s with
  | nil => simp [pieces]
  | cons c s =>
      rw [pieces]
      split_ifs
      · simp
      · cases pieces sep s <;> simp

/-- A separator anywhere divides the pieces before it from those after it. -/
lemma pieces_append (s : List Char) {c : Char} (separates : sep c = true) (rest : List Char) :
    pieces sep (s ++ c :: rest) = pieces sep s ++ pieces sep rest := by
  induction s with
  | nil => simp [pieces, separates]
  | cons d s ih =>
      rw [List.cons_append, pieces, pieces, ih]
      split_ifs
      · rfl
      · cases first : pieces sep s with
        | nil => exact absurd first (pieces_ne_nil sep s)
        | cons p ps => rfl

/-- No piece has a separator, and all its characters are those of the text. -/
lemma of_mem_pieces (member : p ∈ pieces sep s) : ∀ c ∈ p, sep c = false ∧ c ∈ s := by
  induction s generalizing p with
  | nil =>
      obtain rfl : p = [] := by simpa [pieces] using member
      exact fun _ here => absurd here List.not_mem_nil
  | cons d s ih =>
      rw [pieces] at member
      split_ifs at member with separates
      · rcases List.mem_cons.mp member with rfl | member
        · exact fun _ here => absurd here List.not_mem_nil
        · exact fun c here => (ih member c here).imp_right (List.mem_cons_of_mem d)
      · cases others : pieces sep s with
        | nil => exact absurd others (pieces_ne_nil sep s)
        | cons q qs =>
            rw [others] at member ih
            rcases List.mem_cons.mp member with rfl | member
            · intro c here
              rcases List.mem_cons.mp here with rfl | here
              · exact ⟨by simpa using separates, List.mem_cons_self⟩
              · exact (ih List.mem_cons_self c here).imp_right (List.mem_cons_of_mem d)
            · exact fun c here =>
                (ih (List.mem_cons_of_mem q member) c here).imp_right (List.mem_cons_of_mem d)

end Pieces

/-! ## Paths put together -/

namespace Path

variable {path more p : List Char} {ps : List (List Char)}

/-- **The names among pieces**: those that are not empty. -/
def names (ps : List (List Char)) : List String := (ps.filter fun p => !p.isEmpty).map String.ofList

lemma names_append (ps qs : List (List Char)) : names (ps ++ qs) = names ps ++ names qs := by
  simp [names]

/-- What stands between slashes has none. -/
lemma split_of_clear (clear : '/' ∉ p) : split p = [p] :=
  pieces_of_clear fun _ member => decide_eq_false fun same => clear (same ▸ member)

lemma split_slash (front rest : List Char) : split (front ++ '/' :: rest) = split front ++ split rest :=
  pieces_append front (decide_eq_true rfl) rest

lemma isAbsolute_of_clear (clear : '/' ∉ p) : isAbsolute p = false := by
  cases p with
  | nil => rfl
  | cons _ cs => simpa [isAbsolute] using ne_of_mem_of_not_mem List.mem_cons_self clear

/-- **A path continued by a relative one**, piece by piece: the two are divided by a slash, which may have
been there. -/
lemma push_cases (relative : isAbsolute more = false) (path : List Char) :
    path = [] ∧ push path more = more
    ∨ ∃ front, (path = front ∧ front ≠ [] ∨ path = front ++ ['/']) ∧ push path more = front ++ '/' :: more := by
  rcases List.eq_nil_or_concat path with rfl | ⟨front, c, rfl⟩
  · exact .inl ⟨rfl, by simp [push, relative]⟩
  · right
    rw [List.concat_eq_append]
    by_cases slash : c = '/'
    · exact ⟨front, .inr (by rw [slash]), by simp [push, relative, slash]⟩
    · exact ⟨front ++ [c], .inl ⟨rfl, by simp⟩, by simp [push, relative, slash]⟩

lemma names_push (relative : isAbsolute more = false) (path : List Char) :
    names (split (push path more)) = names (split path) ++ names (split more) := by
  rcases push_cases relative path with ⟨rfl, same⟩ | ⟨front, ⟨rfl, -⟩ | rfl, same⟩
  · rw [same]
    rfl
  · rw [same, split_slash, names_append]
  · rw [same, split_slash, split_slash, names_append, names_append]
    simp [names, split, pieces]

lemma isAbsolute_push (relative : isAbsolute more = false) (path : List Char) :
    isAbsolute (push path more) = isAbsolute path := by
  rcases push_cases relative path with ⟨rfl, same⟩ | ⟨front, ⟨rfl, ne_nil⟩ | rfl, same⟩
  · rw [same, relative]
    rfl
  · rw [same, isAbsolute, isAbsolute, List.head?_append_of_ne_nil _ ne_nil]
  · rw [same, isAbsolute, isAbsolute]
    cases front <;> rfl

lemma foldl_push (clear : ∀ p ∈ ps, '/' ∉ p) (path : List Char) :
    names (split (ps.foldl push path)) = names (split path) ++ names ps
    ∧ isAbsolute (ps.foldl push path) = isAbsolute path
    ∧ ∀ c ∈ ps.foldl push path, c = '/' ∨ c ∈ path ∨ ∃ p ∈ ps, c ∈ p := by
  induction ps generalizing path with
  | nil => exact ⟨by simp [names], rfl, fun c member => .inr (.inl member)⟩
  | cons p ps ih =>
      have clear_p := clear p List.mem_cons_self
      have relative := isAbsolute_of_clear clear_p
      obtain ⟨made, start, chars⟩ := ih (fun q member => clear q (List.mem_cons_of_mem p member)) (push path p)
      rw [List.foldl_cons]
      refine ⟨?_, start.trans (isAbsolute_push relative path), fun c member => ?_⟩
      · rw [made, names_push relative, split_of_clear clear_p, List.append_assoc, ← names_append]
        rfl
      · rcases chars c member with slash | member | ⟨q, other, member⟩
        · exact .inl slash
        · have either : c = '/' ∨ c ∈ path ∨ c ∈ p := by
            unfold push at member
            split_ifs at member
            · exact .inr (.inr member)
            · exact .inr (List.mem_append.mp member)
            · rcases List.mem_append.mp member with member | member
              · exact .inr (.inl member)
              · exact (List.mem_cons.mp member).imp_right .inr
          exact either.imp_right (Or.imp_right fun member => ⟨p, List.mem_cons_self, member⟩)
        · exact .inr (.inr ⟨q, List.mem_cons_of_mem p other, member⟩)

/-- **A path from pieces without slashes** is relative, its names are those of the pieces, and it has their
characters and slashes. -/
lemma ofPieces_spec (clear : ∀ p ∈ ps, '/' ∉ p) :
    names (split (ofPieces ps)) = names ps ∧ isAbsolute (ofPieces ps) = false
      ∧ ∀ c ∈ ofPieces ps, c = '/' ∨ ∃ p ∈ ps, c ∈ p := by
  obtain ⟨made, start, chars⟩ := foldl_push clear []
  exact ⟨made, start, fun c member => (chars c member).imp_right fun other => other.resolve_left nofun⟩

end Path

/-! ## Following paths -/

namespace FileTree

variable {t : FileTree} {place place' : Place} {node node' : Node} {ps qs : List (List Char)}

lemma follow_append (ps qs : List (List Char)) :
    t.follow place node (ps ++ qs) = (t.follow place node ps).bind fun r => t.follow r.1 r.2 qs := by
  induction ps generalizing place node with
  | nil => rfl
  | cons p ps ih =>
      cases node with
      | file bytes => rfl
      | directory =>
          simp only [List.cons_append, follow, bind]
          rcases t.step place p with e | ⟨next, found⟩
          · rfl
          · exact ih

/-- Only from a directory does a path lead on. -/
lemma directory_of_follow (more : qs ≠ []) (found : t.follow place node qs = .ok (place', node')) :
    node = .directory := by
  cases node with
  | directory => rfl
  | file bytes =>
      obtain ⟨q, qs, rfl⟩ := List.exists_cons_of_ne_nil more
      simp [follow] at found

/-- A step that is neither to the place itself nor to the one above it leads to the name. -/
lemma step_eq_ok {p : List Char} (plain : p ≠ [] ∧ p ≠ ['.'] ∧ p ≠ ['.', '.'])
    (found : t.step place p = .ok (place', node)) :
    place' = place ++ [String.ofList p] ∧ t.node? place' = some node := by
  unfold step at found
  simp only [plain, List.isEmpty_iff, Bool.or_eq_true, decide_eq_true_eq, or_self, if_false] at found
  split_ifs at found
  split at found
  next node there =>
    obtain ⟨rfl, rfl⟩ := Prod.mk.inj (Except.ok.inj found)
    exact ⟨rfl, there⟩
  next => simp at found

/-- **Pieces without dots lead down**, to the place that their names make, and a file is at the end of them. -/
lemma follow_descends (plain : ∀ p ∈ ps, p ≠ ['.'] ∧ p ≠ ['.', '.'])
    (found : t.follow place .directory ps = .ok (place', node)) :
    place' = place ++ Path.names ps
    ∧ ∀ bytes, node = .file bytes → Path.names ps ≠ [] ∧ t.node? place' = some (.file bytes) := by
  induction ps generalizing place with
  | nil =>
      obtain ⟨rfl, rfl⟩ := Prod.mk.inj (Except.ok.inj found)
      exact ⟨by simp [Path.names], nofun⟩
  | cons p ps ih =>
      have others : ∀ q ∈ ps, q ≠ ['.'] ∧ q ≠ ['.', '.'] := fun q member => plain q (List.mem_cons_of_mem p member)
      by_cases empty : p = []
      · subst empty
        exact ih others found
      · have here := plain p List.mem_cons_self
        have named : Path.names (p :: ps) = String.ofList p :: Path.names ps := by simp [Path.names, empty]
        simp only [follow, bind] at found
        rcases stepped : t.step place p with e | ⟨next, there⟩
        · simp [stepped, Except.bind] at found
        rw [stepped] at found
        obtain ⟨rfl, stands⟩ := step_eq_ok ⟨empty, here⟩ stepped
        rw [named]
        cases there with
        | directory =>
            obtain ⟨same, file⟩ := ih others found
            exact ⟨by rw [same, List.append_assoc]; rfl,
              fun bytes last => ⟨List.cons_ne_nil _ _, (file bytes last).2⟩⟩
        | file content =>
            obtain rfl : ps = [] := by
              by_contra more
              exact absurd (directory_of_follow more found) nofun
            obtain ⟨rfl, rfl⟩ := Prod.mk.inj (Except.ok.inj found)
            exact ⟨rfl, fun bytes last => ⟨List.cons_ne_nil _ _, stands.trans (congrArg some last)⟩⟩

/-! ## Looking up paths -/

lemma locate_eq_ok_iff {path : List Char} {r : Place × Node} :
    t.locate path = .ok r ↔ (∀ c ∈ path, c.toNat ≠ 0) ∧ path ≠ []
      ∧ (String.ofList path).utf8ByteSize ≤ maxPathLength
      ∧ t.follow (if Path.isAbsolute path then [] else t.home) .directory (Path.split path) = .ok r := by
  unfold locate
  split_ifs with nul none long absolute
  all_goals simp_all

/-- **A path that continues another one** leads on from the directory to which that one leads. -/
theorem exists_directory_of_push {path more : List Char} (there : path ≠ [])
    (relative : Path.isAbsolute more = false) (found : t.locate (Path.push path more) = .ok (place, node)) :
    ∃ directory, t.locate path = .ok (directory, .directory)
      ∧ t.follow directory .directory (Path.split more) = .ok (place, node) := by
  obtain ⟨nul, -, short, followed⟩ := locate_eq_ok_iff.mp found
  rw [Path.isAbsolute_push relative] at followed
  have some_piece : Path.split more ≠ [] := pieces_ne_nil _ more
  obtain ⟨rfl, -⟩ | ⟨front, whole, same⟩ := Path.push_cases relative path
  · exact absurd rfl there
  rw [same, Path.split_slash, follow_append] at followed
  rw [same] at nul short
  rcases first : t.follow (if Path.isAbsolute path then [] else t.home) .directory (Path.split front)
    with e | ⟨directory, last⟩
  · simp [first, Except.bind] at followed
  rw [first] at followed
  obtain rfl := directory_of_follow some_piece followed
  refine ⟨directory, locate_eq_ok_iff.mpr ⟨fun c member => nul c ?_, there, ?_, ?_⟩, followed⟩
  · rcases whole with ⟨rfl, -⟩ | rfl
    · exact List.mem_append_left _ member
    · rcases List.mem_append.mp member with member | slash
      · exact List.mem_append_left _ member
      · exact List.mem_append_right _ (List.mem_cons.mpr (.inl (List.mem_singleton.mp slash)))
  · refine le_trans ?_ short
    rcases whole with ⟨rfl, -⟩ | rfl
    · simp [String.ofList_append]
    · simp [String.ofList_append]
  · rcases whole with ⟨rfl, -⟩ | rfl
    · exact first
    · rw [Path.split_slash, follow_append, first]
      rfl

end FileTree

end ControlPlane
