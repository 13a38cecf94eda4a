import Mathlib.Tactic.Common
import StringAudit.Findings
import StringAudit.Proofs.Occurrence

/-!
# Tallied files

Scanned files are recorded one after the other, unless nothing was found in them, so that no path occurs
twice.  If files of one path agree, this records the paths with something in order of first occurrence and
each once; which entries a tally has follows from that.
-/

namespace StringAudit.Findings

variable {identifiers : String → List String} {entries scanned : List (String × List String)}
  {paths : List String} {path : String} {ids : List String}

/-! ## Recording -/

/-- The entries agree with a function from paths to identifiers. -/
def Follows (identifiers : String → List String) (entries : List (String × List String)) : Prop :=
  ∀ entry ∈ entries, entry.2 = identifiers entry.1

/-- Entries that agree with a function are those of their paths. -/
theorem Follows.eq_map (follows : Follows identifiers entries) :
    entries = (entries.map (·.1)).map fun path => (path, identifiers path) := by
  rw [List.map_map]
  refine (List.map_id entries).symm.trans (List.map_congr_left fun entry mem => ?_)
  exact Prod.ext rfl (follows entry mem)

theorem map_fst_recordIn (path : String) (identifiers : List String)
    (entries : List (String × List String)) :
    (recordIn path identifiers entries).map (·.1) =
      if path ∈ entries.map (·.1) then entries.map (·.1) else entries.map (·.1) ++ [path] := by
  induction entries with
  | nil => rfl
  | cons older rest ih =>
      rw [recordIn]
      by_cases same : older.1 = path
      · simp [same]
      · rw [if_neg same, List.map_cons, ih]
        by_cases mem : path ∈ rest.map (·.1)
        · simp [mem]
        · rw [if_neg mem, if_neg]
          · rfl
          · rw [List.map_cons, List.mem_cons, not_or]
            exact ⟨Ne.symm same, mem⟩

theorem Follows.recordIn (follows : Follows identifiers entries) (path : String) :
    Follows identifiers (recordIn path (identifiers path) entries) := by
  induction entries with
  | nil => exact List.forall_mem_singleton.mpr rfl
  | cons older rest ih =>
      obtain ⟨olderFollows, restFollows⟩ := List.forall_mem_cons.mp follows
      rw [Findings.recordIn]
      split
      · exact List.forall_mem_cons.mpr ⟨rfl, restFollows⟩
      · exact List.forall_mem_cons.mpr ⟨olderFollows, ih restFollows⟩

/-- Among entries that agree with a function, a path is recorded at the end or was recorded before. -/
theorem recordIn_eq (follows : Follows identifiers entries) (path : String) :
    recordIn path (identifiers path) entries =
      if path ∈ entries.map (·.1) then entries else entries ++ [(path, identifiers path)] := by
  rw [(follows.recordIn path).eq_map, map_fst_recordIn]
  split
  · exact follows.eq_map.symm
  · rw [List.map_append, ← follows.eq_map]
    rfl

/-! ## Tallying -/

/-- Record a scanned file, unless nothing was found in it. -/
def tally (findings : Findings) (scanned : String × List String) : Findings :=
  if scanned.2.isEmpty then findings else findings.record scanned.1 scanned.2

/-- No path occurs twice among findings. -/
theorem nodup_foldl_tally {findings : Findings} (distinct : (findings.entries.map (·.1)).Nodup) :
    ((scanned.foldl tally findings).entries.map (·.1)).Nodup := by
  induction scanned generalizing findings with
  | nil => exact distinct
  | cons first rest ih =>
      rw [List.foldl_cons]
      apply ih
      rw [tally]
      split
      · exact distinct
      · rw [record, map_fst_recordIn]
        split
        · exact distinct
        · rename_i new
          rw [List.nodup_append]
          refine ⟨distinct, List.pairwise_singleton _ _, ?_⟩
          rintro old oldMem path pathMem rfl
          rw [List.mem_singleton] at pathMem
          exact new (pathMem ▸ oldMem)

/-- What is recorded next to other entries, once a path is recorded too. -/
theorem filter_unrecorded_append (identifiers : String → List String)
    (entries : List (String × List String)) (path : String) (rest : List String) :
    (rest.filter fun other =>
      other ∉ (entries ++ [(path, identifiers path)]).map (·.1) ∧ identifiers other ≠ []) =
      rest.filter fun other =>
        !other == path && decide (other ∉ entries.map (·.1) ∧ identifiers other ≠ []) := by
  apply List.filter_congr
  intro other _
  have new : other ∈ (entries ++ [(path, identifiers path)]).map (·.1) ↔
      other ∈ entries.map (·.1) ∨ other = path := by
    rw [List.map_append, List.mem_append, List.map_singleton, List.mem_singleton]
  rw [Bool.eq_iff_iff, Bool.and_eq_true, decide_eq_true_iff, decide_eq_true_iff, new, not_or,
    and_right_comm, and_comm]
  simp

/-- Files are tallied in order of first occurrence and each once, but for those that were recorded before
or in which nothing was found. -/
theorem foldl_tally_eq (identifiers : String → List String) (paths : List String)
    (follows : Follows identifiers entries) :
    (paths.map fun path => (path, identifiers path)).foldl tally ⟨entries⟩ =
      ⟨entries ++ ((paths.filter fun path => path ∉ entries.map (·.1) ∧ identifiers path ≠ []).eraseDups.map
        fun path => (path, identifiers path))⟩ := by
  induction paths generalizing entries with
  | nil => simp
  | cons path rest ih =>
      rw [List.map_cons, List.foldl_cons, tally]
      by_cases nothing : identifiers path = []
      · rw [if_pos (by simp [nothing]), ih follows, List.filter_cons_of_neg (by simp [nothing])]
      · rw [if_neg (by simp [nothing]), record, recordIn_eq follows]
        by_cases recorded : path ∈ entries.map (·.1)
        · rw [if_pos recorded, ih follows, List.filter_cons_of_neg (by simp [recorded])]
        · have nextFollows := follows.recordIn path
          rw [recordIn_eq follows, if_neg recorded] at nextFollows
          rw [if_neg recorded, ih nextFollows, filter_unrecorded_append,
            List.filter_cons_of_pos (by simp [recorded, nothing]), List.eraseDups_cons, List.filter_filter,
            List.append_assoc]
          rfl

/-- Of the files in which something was found, each is recorded once. -/
theorem entries_tallied (identifiers : String → List String) (paths : List String) :
    ((paths.map fun path => (path, identifiers path)).foldl tally {}).entries =
      (paths.filter fun path => identifiers path ≠ []).eraseDups.map
        fun path => (path, identifiers path) := by
  rw [foldl_tally_eq identifiers paths fun _ mem => absurd mem List.not_mem_nil]
  simp

theorem mem_tallied_iff :
    (path, ids) ∈ ((paths.map fun path => (path, identifiers path)).foldl tally {}).entries ↔
      path ∈ paths ∧ ids = identifiers path ∧ ids ≠ [] := by
  rw [entries_tallied, List.mem_map]
  constructor
  · rintro ⟨_, mem, same⟩
    cases same
    simpa using mem
  · rintro ⟨mem, rfl, something⟩
    exact ⟨path, by simpa [mem] using something, rfl⟩

theorem mem_tallied_paths_iff :
    path ∈ (((paths.map fun path => (path, identifiers path)).foldl tally {}).entries.map (·.1)) ↔
      path ∈ paths ∧ identifiers path ≠ [] := by
  rw [List.mem_map]
  constructor
  · rintro ⟨⟨_, _⟩, mem, rfl⟩
    obtain ⟨collected, rfl, something⟩ := mem_tallied_iff.mp mem
    exact ⟨collected, something⟩
  · rintro ⟨collected, something⟩
    exact ⟨(path, identifiers path), mem_tallied_iff.mpr ⟨collected, rfl, something⟩, rfl⟩

/-- The findings of scanned files are those that are not empty, if files of one path agree. -/
theorem mem_foldl_tally_iff (follows : Follows identifiers scanned) :
    (path, ids) ∈ (scanned.foldl tally {}).entries ↔ (path, ids) ∈ scanned ∧ ids ≠ [] := by
  rw [follows.eq_map]
  generalize scanned.map (·.1) = paths
  rw [mem_tallied_iff, ← and_assoc, List.mem_map]
  refine and_congr_left fun _ => ⟨?_, ?_⟩
  · rintro ⟨mem, rfl⟩
    exact ⟨path, mem, rfl⟩
  · rintro ⟨_, mem, same⟩
    cases same
    exact ⟨mem, rfl⟩

/-- Files in which nothing was found leave no findings. -/
theorem tallied_nothing (paths : List String) : (paths.map fun path => (path, [])).foldl tally {} = {} := by
  rw [foldl_tally_eq (fun _ => []) paths fun _ mem => absurd mem List.not_mem_nil]
  simp

end StringAudit.Findings
