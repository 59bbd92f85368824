import Mathlib
import ControlPlane.Proofs.Client.Edits
import ControlPlane.Proofs.FileTree.Descent

/-!
# Code units come from below the root

The identifier of a code unit is turned into a path before anything is known about it, and only after the file
has been read is the identifier checked as the name of a resource.  Still nothing from outside the root directory
gets into a bundle: identifiers whose paths lead elsewhere are no names, or lead to a directory.

* `CodeLoader.StartsAt` — the root directory of a loader in a tree.
* `CodeLoader.unitNames` — the names on the way from there to a code unit.
* `CodeLoader.load_below` — where the bytes of a code unit come from.
* `Bundle.find?_addAll` — what is in a bundle after several resources have been added.
* **`Bundle.addCode_below`** — what is in a bundle after code units have been added.
-/

namespace ControlPlane

/-- **Names of files and directories**, other than the two that stand for places on the way. -/
def FileTree.IsEntry (name : String) : Prop := name ≠ "" ∧ '/' ∉ name.toList ∧ name ≠ "." ∧ name ≠ ".."

/-! ## Loading -/

namespace CodeLoader

variable {loader : CodeLoader} {files : FileTree} {identifier : String} {bytes : List UInt8}

/-- **The directory below which a loader looks**: where its root leads, or the working directory when that is
empty. -/
def StartsAt (loader : CodeLoader) (files : FileTree) (directory : Place) : Prop :=
  if loader.root = [] then directory = files.home else files.locate loader.root = .ok (directory, .directory)

/-- **The names on the way to a code unit**: the pieces of its identifier between the points, when the path made
of them leads to a file, and otherwise the identifier. -/
def unitNames (loader : CodeLoader) (files : FileTree) (identifier : String) : List String :=
  if files.isFile (loader.nested identifier.toList) then Path.names (pieces (· = '.') identifier.toList)
  else [identifier]

/-- A relative path that continues the root leads on from the directory where the loader starts. -/
lemma onward_of_push {more : List Char} {r : Place × Node} (relative : Path.isAbsolute more = false)
    (found : files.locate (Path.push loader.root more) = .ok r) :
    ∃ directory, loader.StartsAt files directory
      ∧ files.follow directory .directory (Path.split more) = .ok r := by
  by_cases root : loader.root = []
  · rw [root, Path.push, relative] at found
    obtain ⟨-, -, -, followed⟩ := FileTree.locate_eq_ok_iff.mp found
    refine ⟨files.home, by rw [StartsAt, if_pos root], ?_⟩
    simpa [relative] using followed
  · obtain ⟨directory, first, followed⟩ := FileTree.exists_directory_of_push root relative found
    exact ⟨directory, by rwa [StartsAt, if_neg root], followed⟩

/-- A path that ends with a slash leads to no file. -/
lemma isFile_slash (path : List Char) : files.isFile (path ++ ['/']) = false := by
  unfold FileTree.isFile
  split
  next place bytes found =>
    obtain ⟨-, -, -, followed⟩ := FileTree.locate_eq_ok_iff.mp found
    rw [Path.split_slash, FileTree.follow_append] at followed
    rcases first : files.follow (if Path.isAbsolute (path ++ ['/']) then [] else files.home) .directory
      (Path.split path) with e | ⟨directory, last⟩
    · simp [first, Except.bind] at followed
    rw [first] at followed
    obtain rfl := FileTree.directory_of_follow (show Path.split [] ≠ [] from pieces_ne_nil _ []) followed
    exact absurd (Except.ok.inj followed) (by simp)
  next => rfl

/-- The pieces of a name between points have neither slashes nor points. -/
lemma clear_of_pieces (clear : '/' ∉ identifier.toList) {p : List Char}
    (member : p ∈ pieces (· = '.') identifier.toList) : '/' ∉ p ∧ '.' ∉ p :=
  ⟨fun slash => clear (of_mem_pieces member '/' slash).2,
    fun point => absurd (of_mem_pieces member '.' point).1 (by decide)⟩

/-- **A path whose pieces name directories** leads to a file below the root. -/
lemma below_of_nested (clear : '/' ∉ identifier.toList) {place : Place}
    (found : files.locate (loader.nested identifier.toList) = .ok (place, .file bytes)) :
    ∃ directory, loader.StartsAt files directory
      ∧ place = directory ++ Path.names (pieces (· = '.') identifier.toList)
      ∧ Path.names (pieces (· = '.') identifier.toList) ≠ [] ∧ files.node? place = some (.file bytes) := by
  have pieces_clear : ∀ p ∈ pieces (· = '.') identifier.toList, '/' ∉ p := fun p member =>
    (clear_of_pieces clear member).1
  obtain ⟨named, relative, made⟩ := Path.ofPieces_spec pieces_clear
  -- there is no point in the whole path, and so none of its pieces is one of points
  have pointless : '.' ∉ Path.ofPieces (pieces (· = '.') identifier.toList) := by
    intro point
    rcases made '.' point with same | ⟨p, member, here⟩
    · exact absurd same (by decide)
    · exact (clear_of_pieces clear member).2 here
  have plain : ∀ p ∈ Path.split (Path.ofPieces (pieces (· = '.') identifier.toList)),
      p ≠ ['.'] ∧ p ≠ ['.', '.'] := by
    intro p member
    constructor <;> rintro rfl <;> exact pointless (of_mem_pieces member '.' (by simp)).2
  obtain ⟨directory, start, followed⟩ := onward_of_push relative found
  obtain ⟨there, file⟩ := FileTree.follow_descends plain followed
  rw [named] at there file
  exact ⟨directory, start, there, file bytes rfl⟩

/-- **An identifier as a path** leads to a file directly below the root, and is none of the names for places on
the way. -/
lemma below_of_flat (some_name : identifier ≠ "") (clear : '/' ∉ identifier.toList) {place : Place}
    (found : files.locate (loader.flat identifier.toList) = .ok (place, .file bytes)) :
    ∃ directory, loader.StartsAt files directory ∧ place = directory ++ [identifier]
      ∧ identifier ≠ "." ∧ identifier ≠ ".." ∧ files.node? place = some (.file bytes) := by
  obtain ⟨directory, start, followed⟩ := onward_of_push (Path.isAbsolute_of_clear clear) found
  rw [Path.split_of_clear clear] at followed
  have dots : identifier ≠ "." ∧ identifier ≠ ".." := by
    constructor <;> rintro rfl <;> simp [FileTree.follow, FileTree.step, bind, Except.bind] at followed
  have plain : ∀ p ∈ [identifier.toList], p ≠ ['.'] ∧ p ≠ ['.', '.'] := by
    intro p member
    rw [List.mem_singleton.mp member]
    exact ⟨fun same => dots.1 (String.toList_inj.mp same), fun same => dots.2 (String.toList_inj.mp same)⟩
  obtain ⟨there, file⟩ := FileTree.follow_descends plain followed
  have named : Path.names [identifier.toList] = [identifier] := by simp [Path.names, some_name]
  rw [named] at there
  exact ⟨directory, start, there, dots.1, dots.2, (file bytes rfl).2⟩

lemma isEntry_ofList {p : List Char} (filled : p ≠ []) (slash : '/' ∉ p) (point : '.' ∉ p) :
    FileTree.IsEntry (String.ofList p) := by
  refine ⟨fun same => filled (by simpa using same), by simpa using slash, ?_, ?_⟩
  all_goals
    intro same
    have chars := congrArg String.toList same
    rw [String.toList_ofList] at chars
    rw [chars] at point
    exact point (by simp)

/-- **Where the bytes of a code unit come from**, if its identifier is a proper name: from a file below the
root. -/
lemma load_below (proper : Resource.isName identifier = true)
    (loaded : loader.load files identifier = .ok bytes) :
    ∃ directory, loader.StartsAt files directory
      ∧ files.node? (directory ++ loader.unitNames files identifier) = some (.file bytes)
      ∧ loader.unitNames files identifier ≠ []
      ∧ ∀ name ∈ loader.unitNames files identifier, FileTree.IsEntry name := by
  obtain ⟨some_name, chars⟩ := Resource.isName_iff.mp proper
  have clear : '/' ∉ identifier.toList := fun slash => (chars '/' slash).1 rfl
  have found : ∃ place, files.locate (loader.resolve files identifier.toList) = .ok (place, .file bytes) := by
    unfold load FileTree.read at loaded
    split at loaded
    next place content there => exact ⟨place, by rw [there, Except.ok.inj loaded]⟩
    all_goals simp at loaded
  obtain ⟨place, found⟩ := found
  rw [resolve] at found
  rw [unitNames]
  split_ifs at found ⊢ with nested
  · obtain ⟨directory, start, rfl, some_names, file⟩ := below_of_nested clear found
    refine ⟨directory, start, file, some_names, fun name member => ?_⟩
    obtain ⟨p, here, rfl⟩ := List.mem_map.mp member
    obtain ⟨piece, filled⟩ := List.mem_filter.mp here
    obtain ⟨no_slash, no_point⟩ := clear_of_pieces clear piece
    exact isEntry_ofList (by simpa using filled) no_slash no_point
  · obtain ⟨directory, start, rfl, one, two, file⟩ := below_of_flat some_name clear found
    refine ⟨directory, start, file, List.cons_ne_nil _ _, fun name member => ?_⟩
    rw [List.mem_singleton.mp member]
    exact ⟨some_name, clear, one, two⟩

/-- A path that is continued by nothing asks for a directory. -/
lemma isFile_push_nothing {path : List Char} (relative : Path.isAbsolute path = false) :
    files.isFile (Path.push loader.root (Path.push path [])) = false := by
  have nothing : Path.isAbsolute [] = false := rfl
  have inner := Path.isAbsolute_push nothing path
  rw [relative] at inner
  obtain ⟨-, same⟩ | ⟨front, -, same⟩ := Path.push_cases inner loader.root
  · rw [same]
    obtain ⟨-, same⟩ | ⟨front, -, same⟩ := Path.push_cases nothing path
    · rw [same]
      simp [FileTree.isFile, FileTree.locate]
    · rw [same]
      exact isFile_slash front
  · rw [same]
    obtain ⟨-, same⟩ | ⟨behind, -, same⟩ := Path.push_cases nothing path
    · rw [same]
      exact isFile_slash front
    · rw [same, ← List.cons_append, ← List.append_assoc]
      exact isFile_slash _

/-- **A point at the end** of an identifier asks for a directory, so that the identifier itself is the name. -/
lemma unitNames_point (clear : '/' ∉ identifier.toList) (last : identifier.toList.getLast? = some '.') :
    loader.unitNames files identifier = [identifier] := by
  obtain ⟨front, whole⟩ := List.getLast?_eq_some_iff.mp last
  have cut : pieces (· = '.') identifier.toList = pieces (· = '.') front ++ [[]] := by
    rw [whole, pieces_append front (decide_eq_true rfl)]
    rfl
  have front_clear : ∀ p ∈ pieces (· = '.') front, '/' ∉ p := fun p member =>
    (clear_of_pieces clear (cut ▸ List.mem_append_left _ member)).1
  obtain ⟨-, relative, -⟩ := Path.ofPieces_spec front_clear
  have nested : files.isFile (loader.nested identifier.toList) = false := by
    rw [nested, cut, Path.ofPieces, List.foldl_append]
    exact isFile_push_nothing relative
  rw [unitNames, nested]
  rfl

end CodeLoader

/-! ## Adding -/

namespace Bundle

variable {b b' : Bundle} {n : ℕ}

/-- The new ones among resources are the first of their names that are not present. -/
lemma find?_freshAmong {present fresh result : Table Resource} {rs : List Resource}
    (collected : freshAmong present fresh rs = .ok result) {name : String}
    (absent : present.find? name = none) :
    result.find? name = (fresh.find? name).or (rs.find? fun r => r.name = name) := by
  induction rs generalizing fresh with
  | nil =>
      obtain rfl := Except.ok.inj collected
      simp
  | cons r rest ih =>
      rw [Edit.freshAmong_cons] at collected
      obtain ⟨new, fate, collected⟩ := Except.bind_eq_ok_iff.mp collected
      rw [ih collected]
      by_cases here : r.name = name
      · rw [isNew_eq_ok_true.mpr (here ▸ absent)] at fate
        rw [List.find?_cons_of_pos (by simpa using here)]
        rcases before : fresh.find? name with _ | s
        · rw [← here] at before
          obtain rfl : true = new := Except.ok.inj ((isNew_eq_ok_true.mpr before).symm.trans fate)
          simp [here]
        · obtain rfl : new = false := by
            cases new with
            | false => rfl
            | true => simp [← here, isNew_eq_ok_true.mp fate] at before
          simp [before]
      · rw [List.find?_cons_of_neg (by simpa using here)]
        cases new <;> simp [here]

/-- What is present already is not among the new ones. -/
lemma find?_freshAmong_present {present fresh result : Table Resource} {rs : List Resource}
    (collected : freshAmong present fresh rs = .ok result) {name : String} {s : Resource}
    (there : present.find? name = some s) : result.find? name = fresh.find? name := by
  induction rs generalizing fresh with
  | nil =>
      obtain rfl := Except.ok.inj collected
      rfl
  | cons r rest ih =>
      rw [Edit.freshAmong_cons] at collected
      obtain ⟨new, fate, collected⟩ := Except.bind_eq_ok_iff.mp collected
      rw [ih collected]
      cases new with
      | false => rfl
      | true =>
          obtain ⟨beside, first, -⟩ := Except.bind_eq_ok_iff.mp fate
          have other : r.name ≠ name := by
            rintro rfl
            cases beside with
            | true => simp [isNew_eq_ok_true.mp first] at there
            | false => simp [first, Except.bind] at fate
          simp [other]

/-- **What is in a bundle after several resources have been added**: what was there, and otherwise the first of
them that has the name. -/
lemma find?_addAll {rs : List Resource} (added : b.addAll rs = .ok (n, b')) (name : String) :
    b'.find? name = (b.find? name).or (rs.find? fun r => r.name = name) := by
  unfold addAll at added
  split_ifs at added
  · simp [Except.bind_eq_ok_iff] at added
  obtain ⟨fresh, collected, added⟩ := Except.bind_eq_ok_iff.mp added
  obtain ⟨-, rfl⟩ : fresh.size = n
      ∧ { b with resources := b.resources.insertMany fresh.entries } = b' := by
    simpa [pure, Except.pure] using added
  rw [find?, find?, Table.find?_insertMany_entries]
  rcases before : b.resources.find? name with _ | s
  · rw [find?_freshAmong collected before]
    simp
  · rw [find?_freshAmong_present collected before]
    rfl

/-- A code unit that has been loaded. -/
lemma loadCode_eq_ok_iff {loader : CodeLoader} {files : FileTree} {identifier : String} {r : Resource} :
    loadCode loader files identifier = .ok r ↔ Resource.isName identifier = true
      ∧ ∃ bytes, loader.load files identifier = .ok bytes
        ∧ r = ⟨identifier, .code, .inline bytes, Sha256.hexDigest bytes⟩ := by
  unfold loadCode Resource.inline
  rcases loader.load files identifier with e | bytes
  · simp
  · split_ifs with proper <;> simp [proper, eq_comm]

/-- **What is in a bundle after code units have been added.**  For each identifier there is a file below the
root of the loader: the one to which the pieces of the identifier lead, if they lead to a file and the identifier
does not end with a point, and otherwise the one that is called like the identifier and stands directly below the
root.  A name that was new has the bytes of this file, and all else is as it was. -/
theorem addCode_below {loader : CodeLoader} {files : FileTree} {identifiers : List String}
    (added : b.addCode loader files identifiers = .ok (n, b')) :
    (∀ identifier ∈ identifiers, ∃ directory names bytes,
      loader.StartsAt files directory ∧ files.node? (directory ++ names) = some (.file bytes)
      ∧ names ≠ [] ∧ (∀ name ∈ names, FileTree.IsEntry name)
      ∧ names = (if files.isFile (loader.nested identifier.toList)
          then Path.names (pieces (· = '.') identifier.toList) else [identifier])
      ∧ (identifier.toList.getLast? = some '.' → names = [identifier])
      ∧ (b.find? identifier = none →
          b'.find? identifier = some ⟨identifier, .code, .inline bytes, Sha256.hexDigest bytes⟩))
    ∧ ∀ name, b'.find? name ≠ b.find? name → b.find? name = none ∧ name ∈ identifiers := by
  unfold addCode at added
  split_ifs at added
  · simp [Except.bind_eq_ok_iff] at added
  obtain ⟨rs, loaded, added⟩ := Except.bind_eq_ok_iff.mp added
  have each := List.mapM_eq_ok_iff.mp (located_eq_ok.mp loaded)
  have found := find?_addAll added
  -- the resource that is found under a name is what its identifier has been loaded as
  have origin : ∀ name r, (rs.find? fun r => r.name = name) = some r →
      name ∈ identifiers ∧ loadCode loader files name = .ok r := by
    intro name r here
    obtain ⟨identifier, member, same⟩ :=
      List.exists_of_mem_mapM (located_eq_ok.mp loaded) (List.mem_of_find?_eq_some here)
    obtain ⟨-, bytes, -, rfl⟩ := loadCode_eq_ok_iff.mp same
    obtain rfl : identifier = name := by simpa using List.find?_some here
    exact ⟨member, same⟩
  constructor
  · intro identifier member
    obtain ⟨r, among, read⟩ := List.Forall₂.exists_of_mem each member
    obtain ⟨proper, bytes, content, rfl⟩ := loadCode_eq_ok_iff.mp read
    obtain ⟨directory, start, file, some_names, entries⟩ := CodeLoader.load_below proper content
    refine ⟨directory, _, bytes, start, file, some_names, entries, rfl, fun last => ?_, fun absent => ?_⟩
    · have clear : '/' ∉ identifier.toList := fun slash => ((Resource.isName_iff.mp proper).2 '/' slash).1 rfl
      exact CodeLoader.unitNames_point clear last
    · have here : (rs.find? fun r => r.name = identifier).isSome = true :=
        List.find?_isSome.mpr ⟨_, among, by simp⟩
      obtain ⟨s, here⟩ := Option.isSome_iff_exists.mp here
      rw [found, absent, here]
      exact congrArg some (Except.ok.inj ((origin identifier s here).2.symm.trans read))
  · intro name changed
    rw [found] at changed
    rcases before : b.find? name with _ | s
    · rcases here : rs.find? fun r => r.name = name with _ | r
      · simp [before, here] at changed
      · exact ⟨rfl, (origin name r here).1⟩
    · simp [before] at changed

/-- Units below a directory, one of them with a point at its end, and a file of the same name beside the
directory. -/
def someUnits : FileTree :=
  .workspace [("units/com/acme/Parse", [1]), ("units/tok.", [2]), ("tok", [3])] []

/-- Units whose identifiers have points between pieces and at the end are added, and nothing but them. -/
theorem pointed_units_added :
    ∃ n b', empty.addCode ⟨"units".toList⟩ someUnits ["com.acme.Parse", "tok."] = .ok (n, b')
      ∧ (∃ directory bytes, someUnits.node? (directory ++ ["tok."]) = some (.file bytes)
        ∧ b'.find? "tok." = some ⟨"tok.", .code, .inline bytes, Sha256.hexDigest bytes⟩)
      ∧ b'.find? "tok" = none := by
  have fine : (empty.addCode ⟨"units".toList⟩ someUnits ["com.acme.Parse", "tok."]).isOk = true := by
    decide +kernel
  rcases added : empty.addCode ⟨"units".toList⟩ someUnits ["com.acme.Parse", "tok."] with e | ⟨n, b'⟩
  · rw [added] at fine
    cases fine
  obtain ⟨units, others⟩ := addCode_below added
  obtain ⟨directory, names, bytes, -, file, -, -, -, point, fresh⟩ := units "tok." (by simp)
  rw [point rfl] at file
  refine ⟨n, b', rfl, ⟨directory, bytes, file, fresh rfl⟩, ?_⟩
  by_contra there
  obtain ⟨-, member⟩ := others "tok" there
  simp at member

end Bundle

end ControlPlane
