import Mathlib
import ControlPlane.Config
import ControlPlane.Proofs.Toml.Documents
import ControlPlane.Proofs.Toml.Shapes

/-!
# A configuration survives its file

A configuration is written as sections with quoted or bare keys and strings of several forms, and is read from
any text that gives one.  Its numbers are the only thing that could get lost on the way: a text holds no integer
beyond sixty-four bits with sign, and whatever configuration has been read from a text has no other ones.

* `ClientConfig.Fits` — the numbers are those that a text can give.
* `ClientConfig.fits_of_ofToml?`, `ClientConfig.ofToml?_written` — what is read fits, and what fits is read back.
* **`ClientConfig.survives_its_file`** — a configuration that has been read from some text, or that has been made
  for an address, is written, and it is read back as it was, with the same settings for every job.
-/

namespace ControlPlane

open Toml

/-! ## What sections come to -/

/-- Names in order are different names. -/
lemma Table.nodup_names {α : Type} (t : Table α) : (t.entries.map (·.1)).Nodup := by
  have apart : (t.entries.map (·.1)).Pairwise (· < ·) := List.pairwise_map.mpr t.ordered
  exact apart.imp Table.ne_of_lt

namespace JobConfig

/-- The pairs of the numbers of a job's settings. -/
def numbers (c : JobConfig) : List (String × Scalar) :=
  [("parallelism", .integer c.parallelism), ("chunk_size", .integer c.chunkSize)]

/-- The pairs of the properties of a job's settings. -/
def strings (c : JobConfig) : List (String × Scalar) := c.properties.entries.map fun e => (e.1, .string e.2)

/-- The rows that are made of a job's settings. -/
def rows (c : JobConfig) : Rows := pairRows c.numbers ++ [("properties", .table .header (pairRows c.strings))]

lemma sections_eq (c : JobConfig) (path : List String) :
    c.sections path = [⟨path, c.numbers⟩, ⟨path ++ ["properties"], c.strings⟩] := rfl

lemma sections_append (c : JobConfig) (above below : List String) :
    c.sections (above ++ below) = (c.sections below).map (Section.under above) := by
  simp [sections_eq, Section.under]

lemma named_sections (c : JobConfig) {path : List String} (named : path ≠ []) :
    ∀ s ∈ c.sections path, s.path ≠ [] := by
  simp [sections_eq, named]

lemma distinct_strings (c : JobConfig) : (c.strings.map (·.1)).Nodup := by
  simpa [strings, Function.comp_def] using c.properties.nodup_names

/-- **The settings of a job** make a table of a new name. -/
lemma writeAll_sections (c : JobConfig) {above : Rows} {name : String} (new : above.Lacks name) :
    above.writeAll (c.sections [name]) = some (above ++ [(name, .table .header c.rows)]) := by
  have first : above.write ⟨[name], c.numbers⟩ = some (above.put name (.table .header (pairRows c.numbers))) := by
    rw [Rows.write_new new (by simp [numbers]), Rows.put_new new]
  have missing : (pairRows c.numbers).Lacks "properties" := by
    simp [Rows.Lacks, pairRows, numbers, List.lookup]
  have inside : (pairRows c.numbers).write ⟨["properties"], c.strings⟩ = some c.rows :=
    Rows.write_new missing c.distinct_strings
  have second : Rows.write (above.put name (.table .header (pairRows c.numbers)))
      ⟨[name] ++ ["properties"], c.strings⟩ = some (above.put name (.table .header c.rows)) := by
    have below := Rows.write_under [name] (s := ⟨["properties"], c.strings⟩) (List.cons_ne_nil _ _)
      (above.put name (.table .header (pairRows c.numbers)))
    rw [Section.under] at below
    rw [below]
    simp only [Rows.descend, Rows.lookup_put, inside, Option.map_some, Rows.put_put]
  rw [sections_eq, Rows.writeAll, List.foldlM_cons, first]
  simp only [bind, Option.bind, List.foldlM_cons, List.foldlM_nil, second, pure]
  rw [Rows.put_new new]

end JobConfig

namespace JobsConfig

/-- The rows that are made of the settings of some jobs by name. -/
def overrideRows (entries : List (String × JobConfig)) : Rows :=
  entries.map fun e => (e.1, .table .header e.2.rows)

/-- The sections of some jobs by name, inside of the table that they are below. -/
def overrideSections (entries : List (String × JobConfig)) : List Section :=
  entries.flatMap fun e => e.2.sections [e.1]

lemma named_overrideSections {entries : List (String × JobConfig)} :
    ∀ s ∈ overrideSections entries, s.path ≠ [] := by
  intro s member
  obtain ⟨e, -, inside⟩ := List.mem_flatMap.mp member
  exact e.2.named_sections (List.cons_ne_nil _ _) s inside

/-- **Settings of several jobs** make a table of each name. -/
lemma writeAll_overrides {above : Rows} {entries : List (String × JobConfig)}
    (new : ∀ e ∈ entries, above.Lacks e.1) (distinct : (entries.map (·.1)).Nodup) :
    above.writeAll (overrideSections entries) = some (above ++ overrideRows entries) := by
  induction entries generalizing above with
  | nil => rw [overrideRows, List.map_nil, List.append_nil]; rfl
  | cons e rest ih =>
      obtain ⟨first, others⟩ := List.forall_mem_cons.mp new
      obtain ⟨apart, distinct⟩ := List.nodup_cons.mp distinct
      have still_new : ∀ o ∈ rest, Rows.Lacks (above ++ [(e.1, .table .header e.2.rows)]) o.1 := by
        intro o member
        refine Rows.lacks_append.mpr ⟨others o member, Rows.lacks_of_forall_ne fun f here => ?_⟩
        obtain rfl := List.mem_singleton.mp here
        exact fun same => apart (List.mem_map.mpr ⟨o, member, same.symm⟩)
      have split : overrideSections (e :: rest) = e.2.sections [e.1] ++ overrideSections rest := List.flatMap_cons
      rw [split, Rows.writeAll_append, e.2.writeAll_sections first, Option.bind_some, ih still_new distinct,
        List.append_assoc]
      rfl

/-- The table of the overrides.  It has a header of its own only when there are none. -/
def overridesEntry (entries : List (String × JobConfig)) : Entry :=
  .table (if entries.isEmpty then .header else .implied) (overrideRows entries)

/-- The rows that are made of the settings of jobs. -/
def rows (c : JobsConfig) : Rows :=
  [("defaults", .table .header c.defaults.rows), ("overrides", overridesEntry c.overrides.entries)]

/-- The sections of jobs, inside of the table that they are below. -/
def inner (c : JobsConfig) : List Section :=
  c.defaults.sections ["defaults"]
    ++ if c.overrides.entries.isEmpty then [⟨["overrides"], []⟩]
      else (overrideSections c.overrides.entries).map (Section.under ["overrides"])

lemma sections_eq (c : JobsConfig) : c.sections = c.inner.map (Section.under ["jobs"]) := by
  have below : ∀ e : String × JobConfig, e.2.sections ["jobs", "overrides", e.1]
      = ((e.2.sections [e.1]).map (Section.under ["overrides"])).map (Section.under ["jobs"]) := by
    intro e
    rw [← JobConfig.sections_append, ← JobConfig.sections_append]
    rfl
  rw [sections, inner, List.map_append]
  congr 1
  split_ifs
  · rfl
  · simp only [below, overrideSections, List.map_flatMap]

lemma named_inner (c : JobsConfig) : ∀ s ∈ c.inner, s.path ≠ [] := by
  intro s member
  rcases List.mem_append.mp member with defaults | overrides
  · exact c.defaults.named_sections (List.cons_ne_nil _ _) s defaults
  · split_ifs at overrides
    · rw [List.mem_singleton.mp overrides]
      exact List.cons_ne_nil _ _
    · obtain ⟨s, -, rfl⟩ := List.mem_map.mp overrides
      exact List.cons_ne_nil _ _

lemma writeAll_inner (c : JobsConfig) : Rows.writeAll [] c.inner = some c.rows := by
  have defaults : Rows.writeAll [] (c.defaults.sections ["defaults"])
      = some [("defaults", .table .header c.defaults.rows)] :=
    c.defaults.writeAll_sections (Rows.lacks_nil _)
  have new : Rows.Lacks [("defaults", .table .header c.defaults.rows)] "overrides" := by
    simp [Rows.Lacks, List.lookup]
  rw [inner, Rows.writeAll_append, defaults, Option.bind_some]
  split_ifs with none
  · have header : Rows.write [("defaults", .table .header c.defaults.rows)] ⟨["overrides"], []⟩
        = some [("defaults", .table .header c.defaults.rows), ("overrides", .table .header [])] :=
      Rows.write_new new List.nodup_nil
    rw [rows, overridesEntry, if_pos none, List.isEmpty_iff.mp none, Rows.writeAll, List.foldlM_cons, header]
    rfl
  · have filled : overrideSections c.overrides.entries ≠ [] := by
      obtain ⟨e, rest, entries⟩ := List.exists_cons_of_ne_nil (fun same => none (List.isEmpty_iff.mpr same))
      rw [entries, overrideSections, List.flatMap_cons]
      exact List.cons_ne_nil _ _
    have made : Rows.writeAll [] (overrideSections c.overrides.entries)
        = some (overrideRows c.overrides.entries) :=
      writeAll_overrides (fun _ _ => Rows.lacks_nil _) c.overrides.nodup_names
    rw [Rows.writeAll_under ["overrides"] filled named_overrideSections, Rows.descend_new new, made]
    rw [rows, overridesEntry, if_neg none]
    rfl

end JobsConfig

/-- The pairs of the cluster's settings. -/
def ClusterConfig.pairs (c : ClusterConfig) : List (String × Scalar) :=
  [("mode", .string c.mode.name), ("address", .string c.address)]

/-- The pairs of the pool's settings. -/
def PoolConfig.pairs (c : PoolConfig) : List (String × Scalar) :=
  [("worker_threads", .integer c.workerThreads), ("thread_prefix", .string c.threadPrefix)]

namespace ClientConfig

/-- The rows that are made of a configuration. -/
def rows (c : ClientConfig) : Rows :=
  [("cluster", .table .header (pairRows c.cluster.pairs)), ("pool", .table .header (pairRows c.pool.pairs)),
    ("jobs", .table .implied c.jobs.rows)]

lemma sections_eq (c : ClientConfig) :
    c.sections = ⟨["cluster"], c.cluster.pairs⟩ :: ⟨["pool"], c.pool.pairs⟩ :: c.jobs.sections := rfl

/-- **What the sections of a configuration come to.** -/
lemma writeAll_sections (c : ClientConfig) : Rows.writeAll [] c.sections = some c.rows := by
  have cluster : Rows.write [] ⟨["cluster"], c.cluster.pairs⟩
      = some [("cluster", .table .header (pairRows c.cluster.pairs))] :=
    Rows.write_new (Rows.lacks_nil _) (by simp [ClusterConfig.pairs])
  have pool : Rows.write [("cluster", .table .header (pairRows c.cluster.pairs))] ⟨["pool"], c.pool.pairs⟩
      = some [("cluster", .table .header (pairRows c.cluster.pairs)),
        ("pool", .table .header (pairRows c.pool.pairs))] :=
    Rows.write_new (by simp [Rows.Lacks, List.lookup]) (by simp [PoolConfig.pairs])
  have jobs : Rows.writeAll [("cluster", .table .header (pairRows c.cluster.pairs)),
      ("pool", .table .header (pairRows c.pool.pairs))] c.jobs.sections = some c.rows := by
    have new : Rows.Lacks [("cluster", .table .header (pairRows c.cluster.pairs)),
        ("pool", .table .header (pairRows c.pool.pairs))] "jobs" := by
      simp [Rows.Lacks, List.lookup]
    have filled : c.jobs.inner ≠ [] := List.cons_ne_nil _ _
    rw [c.jobs.sections_eq, Rows.writeAll_under ["jobs"] filled c.jobs.named_inner, Rows.descend_new new,
      c.jobs.writeAll_inner]
    rfl
  rw [sections_eq, Rows.writeAll, List.foldlM_cons, cluster]
  simp only [bind, Option.bind, List.foldlM_cons, pool]
  exact jobs

end ClientConfig

/-! ## What is written can be read -/

namespace JobConfig

/-- The sections of settings that fit are accepted, if they are not nested too deep. -/
lemma legible_sections {c : JobConfig} (fits : c.Fits) {path : List String} (named : path ≠ [])
    (shallow : path.length < maxNesting) : ∀ s ∈ c.sections path, s.Legible := by
  obtain ⟨parallelism, chunkSize⟩ := fits
  have numbers : ∀ p ∈ c.numbers, p.2.Fits := by
    simp only [JobConfig.numbers, List.forall_mem_cons, Scalar.Fits, minInteger, maxInteger]
    exact ⟨by omega, by omega, fun _ member => absurd member List.not_mem_nil⟩
  have strings : ∀ p ∈ c.strings, p.2.Fits := by
    intro p member
    obtain ⟨e, -, rfl⟩ := List.mem_map.mp member
    trivial
  rw [sections_eq]
  refine List.forall_mem_cons.mpr ⟨⟨named, shallow.le, numbers⟩, List.forall_mem_singleton.mpr ⟨?_, ?_, strings⟩⟩
  · exact List.append_ne_nil_of_left_ne_nil named _
  · rw [List.length_append]
    exact shallow

end JobConfig

namespace ClientConfig

/-- **The numbers of a configuration are those that a text can give**: there are threads, not more than an integer
tells, and the counts of each job's settings fit in their words. -/
structure Fits (c : ClientConfig) : Prop where
  threads : c.pool.workerThreads ≠ 0
  told : (c.pool.workerThreads : ℤ) ≤ maxInteger
  defaults : c.jobs.defaults.Fits
  overrides : ∀ e ∈ c.jobs.overrides.entries, e.2.Fits

lemma legible_sections {c : ClientConfig} (fits : c.Fits) : ∀ s ∈ c.sections, s.Legible := by
  have cluster : Section.Legible ⟨["cluster"], c.cluster.pairs⟩ :=
    ⟨List.cons_ne_nil _ _, by simp [maxNesting], by simp [ClusterConfig.pairs, Scalar.Fits]⟩
  have pool : Section.Legible ⟨["pool"], c.pool.pairs⟩ := by
    have low : minInteger ≤ c.pool.workerThreads := by unfold minInteger; omega
    exact ⟨List.cons_ne_nil _ _, by simp [maxNesting], by simp [PoolConfig.pairs, Scalar.Fits, low, fits.told]⟩
  have jobs : ∀ s ∈ c.jobs.sections, s.Legible := by
    intro s member
    rcases List.mem_append.mp member with defaults | overrides
    · exact JobConfig.legible_sections fits.defaults (List.cons_ne_nil _ _) (by decide) s defaults
    · split_ifs at overrides
      · rw [List.mem_singleton.mp overrides]
        exact ⟨List.cons_ne_nil _ _, by simp [maxNesting], by simp⟩
      · obtain ⟨e, entry, inside⟩ := List.mem_flatMap.mp overrides
        exact JobConfig.legible_sections (fits.overrides e entry) (List.cons_ne_nil _ _) (by simp [maxNesting]) s inside
  rw [sections_eq]
  exact List.forall_mem_cons.mpr ⟨cluster, List.forall_mem_cons.mpr ⟨pool, jobs⟩⟩

/-- **What is read of a written configuration** is what its sections come to. -/
lemma parse?_written {c : ClientConfig} (fits : c.Fits) : parse? (documentText c.sections) = some (finishRows c.rows) :=
  parse?_documentText (legible_sections fits) c.writeAll_sections

end ClientConfig

/-! ## What has been read fits -/

lemma JobConfig.fits_standard : JobConfig.standard.Fits := ⟨by decide, by decide⟩

/-- **Settings of a job that are read fit** in their words. -/
lemma JobConfig.fits_of_ofToml? {v : Value} {c : JobConfig} (read : JobConfig.ofToml? v = some c) : c.Fits := by
  have small : ∀ {f : Fields} {name : String} {missing n : ℕ}, missing < countBound →
      f.orElse name (·.below? countBound) missing = some n → n < 2 ^ 32 := by
    intro f name missing n fits made
    have bound : countBound = 2 ^ 32 := by norm_num [countBound]
    rcases Fields.orElse_cases made with rfl | ⟨v, -, read⟩
    · rwa [← bound]
    · rw [← bound]
      exact (Value.below?_eq_some_iff.mp read).2
  obtain ⟨f, -, read⟩ := Option.bind_eq_some_iff.mp read
  obtain ⟨parallelism, first, read⟩ := Option.bind_eq_some_iff.mp read
  obtain ⟨chunkSize, second, read⟩ := Option.bind_eq_some_iff.mp read
  obtain ⟨properties, -, read⟩ := Option.bind_eq_some_iff.mp read
  obtain rfl := Option.some.inj read
  exact ⟨small (by decide) first, small (by decide) second⟩

lemma JobsConfig.fits_of_ofToml? {v : Value} {c : JobsConfig} (read : JobsConfig.ofToml? v = some c) :
    c.defaults.Fits ∧ ∀ e ∈ c.overrides.entries, e.2.Fits := by
  obtain ⟨f, -, read⟩ := Option.bind_eq_some_iff.mp read
  obtain ⟨defaults, first, read⟩ := Option.bind_eq_some_iff.mp read
  obtain ⟨overrides, second, read⟩ := Option.bind_eq_some_iff.mp read
  obtain rfl := Option.some.inj read
  constructor
  · rcases Fields.orElse_cases first with rfl | ⟨v, -, read⟩
    · exact JobConfig.fits_standard
    · exact JobConfig.fits_of_ofToml? read
  · intro e member
    rcases Fields.orElse_cases second with rfl | ⟨v, -, read⟩
    · contradiction
    · obtain ⟨w, read⟩ := Value.exists_of_table? read member
      exact JobConfig.fits_of_ofToml? read

lemma PoolConfig.told_standard : (PoolConfig.standard.workerThreads : ℤ) ≤ maxInteger := by decide

/-- **The number of threads that is read** is one that an integer tells. -/
lemma PoolConfig.told_of_ofToml? {v : Value} (bounded : v.Bounded) {c : PoolConfig}
    (read : PoolConfig.ofToml? v = some c) : (c.workerThreads : ℤ) ≤ maxInteger := by
  obtain ⟨f, fields, read⟩ := Option.bind_eq_some_iff.mp read
  obtain ⟨threads, first, read⟩ := Option.bind_eq_some_iff.mp read
  obtain ⟨names, -, read⟩ := Option.bind_eq_some_iff.mp read
  obtain rfl := Option.some.inj read
  rcases Fields.orElse_cases first with rfl | ⟨w, found, read⟩
  · exact PoolConfig.told_standard
  · have inside := bounded.fields? fields found
    rw [(Value.below?_eq_some_iff.mp read).1] at inside
    cases inside with
    | integer low high => exact high

/-! ## What is read back -/

lemma finishRows_pairRows (pairs : List (String × Scalar)) :
    finishRows (pairRows pairs) = pairs.map fun p => (p.1, p.2.value) := by
  rw [finishRows_eq_map, pairRows, List.map_map]
  rfl

/-! ### Tables with all fields -/

section Fields

variable {f : Fields}

lemma JobConfig.ofToml?_table {c : JobConfig} (fits : c.Fits) {properties : Value}
    (first : f.lookup "parallelism" = some (.integer c.parallelism))
    (second : f.lookup "chunk_size" = some (.integer c.chunkSize)) (third : f.lookup "properties" = some properties)
    (back : properties.table? (·.string?) = some c.properties) : JobConfig.ofToml? (.table f) = some c := by
  have bound : 2 ^ 32 = countBound := by norm_num [countBound]
  have parallelism := Value.below?_eq_some_iff.mpr ⟨rfl, lt_of_lt_of_eq fits.1 bound⟩
  have chunkSize := Value.below?_eq_some_iff.mpr ⟨rfl, lt_of_lt_of_eq fits.2 bound⟩
  simp only [ofToml?, Value.fields?, Value.entries?, Fields.orElse, bind, Option.bind, first, second, third, parallelism,
    chunkSize, back, pure]

lemma JobsConfig.ofToml?_table {c : JobsConfig} {defaults overrides : Value}
    (first : f.lookup "defaults" = some defaults) (second : f.lookup "overrides" = some overrides)
    (most : JobConfig.ofToml? defaults = some c.defaults)
    (others : overrides.table? JobConfig.ofToml? = some c.overrides) : JobsConfig.ofToml? (.table f) = some c := by
  simp only [ofToml?, Value.fields?, Value.entries?, Fields.orElse, bind, Option.bind, first, second, most, others, pure]

lemma ClusterConfig.ofToml?_table {c : ClusterConfig} (first : f.lookup "mode" = some (.string c.mode.name))
    (second : f.lookup "address" = some (.string c.address)) : ClusterConfig.ofToml? (.table f) = some c := by
  have mode : (Value.string c.mode.name).choice? ClusterMode.choices = some c.mode := by
    cases c.mode <;> rfl
  simp only [ofToml?, Value.fields?, Value.entries?, Fields.orElse, bind, Option.bind, first, second, mode, Value.string?,
    pure]

lemma PoolConfig.ofToml?_table {c : PoolConfig} (small : c.workerThreads < threadBound)
    (first : f.lookup "worker_threads" = some (.integer c.workerThreads))
    (second : f.lookup "thread_prefix" = some (.string c.threadPrefix)) : PoolConfig.ofToml? (.table f) = some c := by
  have threads := Value.below?_eq_some_iff.mpr ⟨rfl, small⟩
  simp only [ofToml?, Value.fields?, Value.entries?, Fields.orElse, bind, Option.bind, first, second, threads,
    Value.string?, pure]

lemma ClientConfig.ofTable?_eq {c : ClientConfig} {cluster pool jobs : Value} (first : f.lookup "cluster" = some cluster)
    (second : f.lookup "pool" = some pool) (third : f.lookup "jobs" = some jobs)
    (cluster_back : ClusterConfig.ofToml? cluster = some c.cluster) (pool_back : PoolConfig.ofToml? pool = some c.pool)
    (jobs_back : JobsConfig.ofToml? jobs = some c.jobs) : ClientConfig.ofTable? f = some c := by
  simp only [ofTable?, Fields.orElse, bind, Option.bind, first, second, third, cluster_back, pool_back, jobs_back, pure]

end Fields

/-! ### The tables of written sections -/

lemma JobConfig.ofToml?_rows {c : JobConfig} (fits : c.Fits) : JobConfig.ofToml? (.table (finishRows c.rows)) = some c := by
  have strings : finishRows (pairRows c.strings) = c.properties.entries.map fun e => (e.1, Value.string e.2) := by
    rw [finishRows_pairRows, strings, List.map_map]
    rfl
  have made : finishRows c.rows = [("parallelism", .integer c.parallelism), ("chunk_size", .integer c.chunkSize),
      ("properties", .table (c.properties.entries.map fun e => (e.1, .string e.2)))] := by
    rw [rows, finishRows_eq_map, List.map_append, ← finishRows_eq_map, finishRows_pairRows]
    simp [numbers, Entry.finish, Scalar.value, strings]
  have properties : (Value.table (c.properties.entries.map fun e => (e.1, .string e.2))).table? (·.string?)
      = some c.properties := Value.table?_entries _ Value.string fun _ _ => rfl
  rw [made]
  exact ofToml?_table fits rfl rfl rfl properties

lemma JobsConfig.ofToml?_rows {c : JobsConfig} (defaults : c.defaults.Fits)
    (overrides : ∀ e ∈ c.overrides.entries, e.2.Fits) : JobsConfig.ofToml? (.table (finishRows c.rows)) = some c := by
  have inside : finishRows (overrideRows c.overrides.entries)
      = c.overrides.entries.map fun e => (e.1, Value.table (finishRows e.2.rows)) := by
    rw [finishRows_eq_map, overrideRows, List.map_map]
    simp [Function.comp_def, Entry.finish]
  have made : finishRows c.rows = [("defaults", .table (finishRows c.defaults.rows)),
      ("overrides", .table (c.overrides.entries.map fun e => (e.1, .table (finishRows e.2.rows))))] := by
    rw [rows, finishRows, finishRows, finishRows, overridesEntry, Entry.finish, Entry.finish, inside]
  have back : ∀ e ∈ c.overrides.entries, JobConfig.ofToml? (.table (finishRows e.2.rows)) = some e.2 :=
    fun e member => JobConfig.ofToml?_rows (overrides e member)
  have others : (Value.table (c.overrides.entries.map fun e => (e.1, .table (finishRows e.2.rows)))).table?
      JobConfig.ofToml? = some c.overrides :=
    Value.table?_entries JobConfig.ofToml? (fun o => .table (finishRows o.rows)) back
  rw [made]
  exact ofToml?_table rfl rfl (JobConfig.ofToml?_rows defaults) others

lemma ClusterConfig.ofToml?_pairs (c : ClusterConfig) :
    ClusterConfig.ofToml? (.table (finishRows (pairRows c.pairs))) = some c := by
  rw [finishRows_pairRows]
  exact ofToml?_table rfl rfl

lemma PoolConfig.ofToml?_pairs {c : PoolConfig} (small : c.workerThreads < threadBound) :
    PoolConfig.ofToml? (.table (finishRows (pairRows c.pairs))) = some c := by
  rw [finishRows_pairRows]
  exact ofToml?_table small rfl rfl

namespace ClientConfig

variable {c : ClientConfig}

/-- **A configuration whose numbers fit is read back** from what is written of it. -/
lemma ofToml?_written (fits : c.Fits) :
    ∃ written, c.toToml? = some written ∧ ofToml? written = .ok c := by
  have cluster := c.cluster.ofToml?_pairs
  have pool : PoolConfig.ofToml? (.table (finishRows (pairRows c.pool.pairs))) = some c.pool := by
    have told := fits.told
    unfold maxInteger at told
    exact PoolConfig.ofToml?_pairs (by unfold PoolConfig.threadBound; omega)
  have jobs := JobsConfig.ofToml?_rows fits.defaults fits.overrides
  have made : finishRows c.rows = [("cluster", .table (finishRows (pairRows c.cluster.pairs))),
      ("pool", .table (finishRows (pairRows c.pool.pairs))), ("jobs", .table (finishRows c.jobs.rows))] := by
    rw [rows, finishRows, finishRows, finishRows, finishRows, Entry.finish, Entry.finish, Entry.finish]
  have back : ofTable? (finishRows c.rows) = some c := by
    rw [made]
    exact ofTable?_eq rfl rfl rfl cluster pool jobs
  refine ⟨String.ofList (documentText c.sections), by rw [toToml?, if_pos fits.told], ?_⟩
  rw [ofToml?, String.toList_ofList, parse?_written fits, Option.bind_some, back]
  dsimp only
  rw [if_neg fits.threads]

/-- **A configuration that has been read from a text fits.** -/
lemma fits_of_ofToml? {text : String} (read : ofToml? text = .ok c) : c.Fits := by
  unfold ofToml? at read
  split at read
  · contradiction
  · rename_i made inside
    split_ifs at read with threads
    obtain rfl := Except.ok.inj read
    obtain ⟨entries, parsed, fields⟩ := Option.bind_eq_some_iff.mp inside
    obtain ⟨cluster, -, fields⟩ := Option.bind_eq_some_iff.mp fields
    obtain ⟨pool, second, fields⟩ := Option.bind_eq_some_iff.mp fields
    obtain ⟨jobs, third, fields⟩ := Option.bind_eq_some_iff.mp fields
    obtain rfl := Option.some.inj fields
    have told : (pool.workerThreads : ℤ) ≤ maxInteger := by
      rcases Fields.orElse_cases second with rfl | ⟨v, found, read⟩
      · exact PoolConfig.told_standard
      · exact PoolConfig.told_of_ofToml? ((bounded_of_parse? parsed).entry found) read
    have counts : jobs.defaults.Fits ∧ ∀ e ∈ jobs.overrides.entries, e.2.Fits := by
      rcases Fields.orElse_cases third with rfl | ⟨v, -, read⟩
      · exact ⟨JobConfig.fits_standard, nofun⟩
      · exact JobsConfig.fits_of_ofToml? read
    exact ⟨threads, told, counts.1, counts.2⟩

lemma fits_scaffold (address : String) : (scaffold address).Fits :=
  ⟨show PoolConfig.standard.workerThreads ≠ 0 by decide, PoolConfig.told_standard, JobConfig.fits_standard, nofun⟩

/-- **The configurations that some text gives** are those whose numbers fit. -/
theorem exists_text_iff : (∃ text, ofToml? text = .ok c) ↔ c.Fits := by
  constructor
  · rintro ⟨text, read⟩
    exact fits_of_ofToml? read
  · intro fits
    obtain ⟨written, -, back⟩ := ofToml?_written fits
    exact ⟨written, back⟩

/-- **A configuration survives its file**: it is written, and what is written is read back as the configuration, so
that it has the same settings for every job. -/
def Survives (c : ClientConfig) : Prop :=
  ∃ written, c.toToml? = some written ∧ ofToml? written = .ok c
    ∧ ∀ again, ofToml? written = .ok again → ∀ job, again.resolve job = c.resolve job

lemma Fits.survives (fits : c.Fits) : c.Survives := by
  obtain ⟨written, made, back⟩ := ofToml?_written fits
  refine ⟨written, made, back, fun again read job => ?_⟩
  rw [back] at read
  rw [Except.ok.inj read]

/-- **Every configuration that is read from a text survives its file**, and so does the one that is made for an
address, whatever strings stand in them. -/
theorem survives_its_file :
    (∀ text c, ofToml? text = .ok c → c.Survives) ∧ ∀ address, (scaffold address).Survives :=
  ⟨fun _ _ read => (fits_of_ofToml? read).survives, fun address => (fits_scaffold address).survives⟩

/-- A text with a key of points and quotes, an empty key, and strings with every kind of quote, a backslash, a line
feed, a control character and a letter outside of ASCII. -/
def quotedText : String :=
  "[cluster]\naddress = \"a\\\"b'c\\\\\\n\\u0001\\u00E9\"\n[jobs.overrides.\"a.\\\"b\"]\nparallelism = 7\n"
    ++ "[jobs.overrides.\"a.\\\"b\".properties]\n\"\" = \"it's \\\"\\\"\\\"\"\n"

/-- What the text gives. -/
def quotedConfig : ClientConfig :=
  { scaffold "a\"b'c\\\n\x01\u00E9" with
    jobs := ⟨.standard, Table.ofList [("a.\"b", ⟨7, 256, Table.ofList [("", "it's \"\"\"")]⟩)]⟩ }

/-- Strings of every kind survive. -/
theorem quoted_settings_survive : ofToml? quotedText = .ok quotedConfig ∧ quotedConfig.Survives := by
  have read : ofToml? quotedText = .ok quotedConfig := by decide +kernel
  exact ⟨read, survives_its_file.1 quotedText quotedConfig read⟩

end ClientConfig

end ControlPlane
