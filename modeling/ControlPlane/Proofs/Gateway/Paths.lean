import Mathlib
import ControlPlane.Gateway.Remote
import ControlPlane.Proofs.Text.Bytes
import ControlPlane.Proofs.Text.Words

/-!
# The paths of jobs arrive as they are sent

A client writes the name of a job into the path of a request, and the gateway cuts the path at its
slashes and decodes the segments.  A proper name has none of the characters that mean something on
this way, so the gateway finds the name that the client has written.

* `Job.IsPathChar` — the characters of names and the slash, and what they are not.
* `Http.decodeSegment_of_isName` — the segment of a name stands for the name.
* `Gateway.segments_jobPath`, `Gateway.segments_jobSubpath` — a path, cut at its slashes.
* `Remote.request_eq` — the request for a call on a proper name can be sent.
-/

namespace ControlPlane

/-! ## Characters -/

/-- A character of a name, or the slash between names. -/
def Job.IsPathChar (c : Char) : Prop := Job.isNameChar c = true ∨ c = '/'

namespace Job

lemma isNameChar_bounds {c : Char} (h : isNameChar c = true) :
    c.toNat < 128 ∧ Http.isPathChar c = true ∧ c ≠ '/' ∧ c ≠ '?' ∧ c ≠ '#' ∧ c ≠ '%' := by
  have range : (97 ≤ c.toNat ∧ c.toNat ≤ 122) ∨ (65 ≤ c.toNat ∧ c.toNat ≤ 90)
      ∨ (48 ≤ c.toNat ∧ c.toNat ≤ 57) ∨ c.toNat = 46 ∨ c.toNat = 95 ∨ c.toNat = 45 := by
    simp only [isNameChar, Bool.or_eq_true, Bool.and_eq_true, decide_eq_true_eq, Char.le_def,
      UInt32.le_iff_toNat_le] at h
    rcases h with ((((h | h) | h) | rfl) | rfl) | rfl
    · exact .inl h
    · exact .inr (.inl h)
    · exact .inr (.inr (.inl h))
    all_goals decide
  have other : ∀ d : Char, c.toNat ≠ d.toNat → c ≠ d := fun d ne eq => ne (congrArg Char.toNat eq)
  refine ⟨by omega, ?_, other _ ?_, other _ ?_, other _ ?_, other _ ?_⟩
  · simp only [Http.isPathChar, Bool.or_eq_true, Bool.and_eq_true, decide_eq_true_eq]
    omega
  all_goals
    simp only [Char.reduceToNat, ne_eq]
    omega

lemma IsPathChar.clear {c : Char} (h : IsPathChar c) :
    Http.isPathChar c = true ∧ c ≠ '?' ∧ c ≠ '#' := by
  rcases h with name | rfl
  · have bounds := isNameChar_bounds name
    exact ⟨bounds.2.1, bounds.2.2.2.1, bounds.2.2.2.2.1⟩
  · decide

lemma isNameChar_of_mem {job : String} (valid : isName job = true) :
    ∀ c ∈ job.toList, isNameChar c = true := by
  simp only [isName, Bool.and_eq_true, List.all_eq_true] at valid
  exact valid.2

lemma ne_empty_of_isName {job : String} (valid : isName job = true) : job.toList ≠ [] := by
  simp only [isName, Bool.and_eq_true, Bool.not_eq_true', String.isEmpty_eq_false_iff] at valid
  simpa using valid.1.1

lemma slash_not_mem {job : String} (valid : isName job = true) : '/' ∉ job.toList := by
  intro member
  exact (isNameChar_bounds (isNameChar_of_mem valid _ member)).2.2.1 rfl

end Job

/-! ## Texts without signs -/

namespace Http

section Clear

variable {path : List Char}

lemma pathOf_eq_self (clear : ∀ c ∈ path, Job.IsPathChar c) : pathOf path = path := by
  refine List.takeWhile_eq_self_iff.mpr fun c member => ?_
  have other := (clear c member).clear.2
  simp [other.1, other.2]

lemma withoutFragment_eq_self (clear : ∀ c ∈ path, Job.IsPathChar c) :
    withoutFragment path = path := by
  refine List.takeWhile_eq_self_iff.mpr fun c member => ?_
  simpa using (clear c member).clear.2.2

lemma isTarget_of_clear (clear : ∀ c ∈ path, Job.IsPathChar c) : isTarget path = true := by
  have whole := pathOf_eq_self clear
  have all : path.all isPathChar = true :=
    List.all_eq_true.mpr fun c member => (clear c member).clear.1
  simp [isTarget, whole, all]

end Clear

/-! ## Decoding -/

lemma percentDecode_eq_self {bytes : List UInt8} (clear : percent ∉ bytes) :
    percentDecode bytes = bytes := by
  fun_induction percentDecode bytes <;> simp_all

lemma toList_loop (b : ByteArray) (i : ℕ) (seen : List UInt8) :
    ByteArray.toList.loop b i seen = seen.reverse ++ b.data.toList.drop i := by
  induction left : b.size - i generalizing i seen with
  | zero =>
      have past : ¬i < b.size := by omega
      rw [ByteArray.toList.loop, if_neg past, List.drop_of_length_le, List.append_nil]
      simpa using past
  | succ n ih =>
      have inside : i < b.size := by omega
      have length : i < b.data.toList.length := inside
      rw [ByteArray.toList.loop, if_pos inside, ih (i + 1) _ (by omega),
        List.drop_eq_getElem_cons length]
      simp [ByteArray.get!, getElem!_pos, inside]

lemma toList_eq_data (b : ByteArray) : b.toList = b.data.toList := by
  rw [ByteArray.toList, toList_loop, List.reverse_nil, List.nil_append, List.drop_zero]

/-- A text of ASCII characters has one byte for each of them. -/
lemma toUTF8_toList {s : String} (ascii : ∀ c ∈ s.toList, c.toNat < 128) :
    s.toUTF8.toList = s.toList.map fun c => c.val.toUInt8 := by
  rw [toList_eq_data]
  exact bytes_ascii ascii

/-- **The segment of a name** stands for the name. -/
lemma decodeSegment_of_isName {job : String} (valid : Job.isName job = true) :
    decodeSegment job.toList = some job := by
  have name := Job.isNameChar_of_mem valid
  have clear : percent ∉ job.toUTF8.toList := by
    rw [toUTF8_toList fun c member => (Job.isNameChar_bounds (name c member)).1]
    simp only [List.mem_map, not_exists, not_and]
    intro c member same
    have bounds := Job.isNameChar_bounds (name c member)
    refine bounds.2.2.2.2.2 (Char.toNat_inj.mp ?_)
    have value := congrArg UInt8.toNat same
    have small : c.val.toNat < 128 := bounds.1
    simp only [UInt32.toNat_toUInt8, percent] at value
    have exact : c.val.toNat = 37 := by
      rw [Nat.mod_eq_of_lt (by omega)] at value
      exact value
    exact exact
  rw [decodeSegment, String.ofList_toList, percentDecode_eq_self clear, toList_eq_data]
  simp [String.fromUTF8?, String.fromUTF8, String.toUTF8, job.isValidUTF8]

end Http

/-! ## Paths -/

namespace Gateway

variable {job part : String}

lemma jobPath_toList (job : String) : (jobPath job).toList = "/api/v1/jobs/".toList ++ job.toList := by
  simp [jobPath, jobsPath, toString]

lemma jobSubpath_toList (job part : String) :
    (jobSubpath job part).toList = "/api/v1/jobs/".toList ++ job.toList ++ '/' :: part.toList := by
  simp [jobSubpath, jobsPath, toString]

lemma jobs_clear : ∀ c ∈ "/api/v1/jobs/".toList, Job.IsPathChar c := by
  simp [Job.IsPathChar, Job.isNameChar]

lemma jobPath_clear (valid : Job.isName job = true) :
    ∀ c ∈ (jobPath job).toList, Job.IsPathChar c := by
  intro c member
  rw [jobPath_toList] at member
  rcases List.mem_append.mp member with before | name
  · exact jobs_clear c before
  · exact .inl (Job.isNameChar_of_mem valid c name)

lemma jobSubpath_clear (valid : Job.isName job = true)
    (clear : ∀ c ∈ part.toList, Job.isNameChar c = true) :
    ∀ c ∈ (jobSubpath job part).toList, Job.IsPathChar c := by
  intro c member
  rw [jobSubpath_toList] at member
  rcases List.mem_append.mp member with path | after
  · exact jobPath_clear valid c (by rwa [jobPath_toList])
  · rcases List.mem_cons.mp after with rfl | name
    · exact .inr rfl
    · exact .inl (clear c name)

/-- The pieces of what follows the path of the jobs. -/
lemma pieces_jobs (rest : List Char) :
    pieces (· = '/') ("api/v1/jobs/".toList ++ rest)
      = "api".toList :: "v1".toList :: "jobs".toList :: pieces (· = '/') rest := by
  have cut : "api/v1/jobs/".toList ++ rest
      = "api".toList ++ '/' :: ("v1".toList ++ '/' :: ("jobs".toList ++ '/' :: rest)) := by simp
  rw [cut, pieces_append_cons (by simp) (by simp), pieces_append_cons (by simp) (by simp),
    pieces_append_cons (by simp) (by simp)]

lemma clear_of_isName (valid : Job.isName job = true) :
    ∀ c ∈ job.toList, decide (c = '/') = false :=
  fun _ member => decide_eq_false fun eq => Job.slash_not_mem valid (eq ▸ member)

/-- **The path of a job**, cut at its slashes. -/
lemma segments_jobPath (valid : Job.isName job = true) :
    Http.segments (jobPath job)
      = some ["api".toList, "v1".toList, "jobs".toList, job.toList] := by
  have path : (jobPath job).toList = '/' :: ("api/v1/jobs/".toList ++ job.toList) := by
    simp [jobPath_toList]
  rw [Http.segments, Http.pathOf_eq_self (jobPath_clear valid), path]
  simp only [pieces_jobs, pieces_of_clear (clear_of_isName valid)]

/-- **The path of a part of a job**, cut at its slashes. -/
lemma segments_jobSubpath (valid : Job.isName job = true)
    (clear : ∀ c ∈ part.toList, Job.isNameChar c = true) :
    Http.segments (jobSubpath job part)
      = some ["api".toList, "v1".toList, "jobs".toList, job.toList, part.toList] := by
  have path : (jobSubpath job part).toList
      = '/' :: ("api/v1/jobs/".toList ++ (job.toList ++ '/' :: part.toList)) := by
    simp [jobSubpath_toList]
  have part_clear : ∀ c ∈ part.toList, decide (c = '/') = false := fun c member =>
    decide_eq_false (Job.isNameChar_bounds (clear c member)).2.2.1
  rw [Http.segments, Http.pathOf_eq_self (jobSubpath_clear valid clear), path]
  simp only [pieces_jobs, pieces_append_cons (clear_of_isName valid) (decide_eq_true rfl),
    pieces_of_clear part_clear]

lemma route_job (valid : Job.isName job = true) :
    Route.ofSegments? ["api".toList, "v1".toList, "jobs".toList, job.toList]
      = some (.job job.toList) := by
  have some_name : job.toList.isEmpty = false := by
    simpa using Job.ne_empty_of_isName valid
  simp [Route.ofSegments?, Route.belowJobs?, some_name]

lemma route_jobSubpath (job part : String) :
    Route.ofSegments? ["api".toList, "v1".toList, "jobs".toList, job.toList, part.toList]
      = Route.ofPart? job.toList part.toList := by
  simp [Route.ofSegments?, Route.belowJobs?]

end Gateway

/-! ## Requests -/

namespace Remote

open Gateway

variable {job : String}

lemma methodAndPath_clear (valid : Job.isName job = true) (call : Call) :
    ∀ c ∈ (methodAndPath job call).2.toList, Job.IsPathChar c := by
  cases call
  case register | destroy => exact jobPath_clear valid
  all_goals exact jobSubpath_clear valid (by simp [Job.isNameChar])

/-- The request for a call, with its path as it is. -/
def requestFor (address job : String) (call : Call) : Http.Request :=
  ⟨(methodAndPath job call).1, (methodAndPath job call).2,
    lengthHeader (body call) ++ [("content-type", "application/json"), ("host", address),
      ("user-agent", userAgent)], body call⟩

/-- **The request for a call on a proper name** can be sent, and its path is sent as it is. -/
lemma request_eq (valid : Job.isName job = true) (address : String) (call : Call) :
    request address job call = .ok (requestFor address job call) := by
  have clear := methodAndPath_clear valid call
  simp only [request, requestFor, Http.isTarget_of_clear clear, if_true,
    Http.withoutFragment_eq_self clear, String.ofList_toList]

/-- A call on a proper name is handled as its request says. -/
lemma exchange_eq (valid : Job.isName job = true) (c : Cluster) (now : ℕ) (address : String)
    (call : Call) :
    exchange c now address job call
      = (.sent job call (Gateway.handle c now (requestFor address job call)).1,
        (Gateway.handle c now (requestFor address job call)).2) := by
  rw [exchange, request_eq valid]

end Remote

end ControlPlane
