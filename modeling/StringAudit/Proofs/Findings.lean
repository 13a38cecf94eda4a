import Mathlib.Data.List.Forall2
import StringAudit.Findings
import StringAudit.Proofs.Entries

/-!
# Findings in the order of their paths

The entries of findings are visited in the order of their paths.  If every path occurs once, that order
is strict, and it does not depend on the order in which the entries were recorded.  With the identifiers of
each path in order too, nothing is left of the orders in which they were listed.
-/

namespace StringAudit.Findings

theorem perm_byPath (findings : Findings) : findings.byPath.Perm findings.entries :=
  List.mergeSort_perm _ _

theorem pairwise_byPath (findings : Findings) : findings.byPath.Pairwise fun a b => a.1 ≤ b.1 :=
  pairwise_mergeSort_key Prod.fst findings.entries

/-- Findings of different paths. -/
def Distinct (findings : Findings) : Prop :=
  (findings.entries.map Prod.fst).Nodup

instance (findings : Findings) : Decidable findings.Distinct :=
  inferInstanceAs (Decidable (List.Nodup _))

variable {findings other : Findings}

theorem Distinct.eq_of_fst_eq (distinct : findings.Distinct) {a b : String × List String}
    (aMem : a ∈ findings.entries) (bMem : b ∈ findings.entries) (same : a.1 = b.1) : a = b :=
  List.inj_on_of_nodup_map distinct aMem bMem same

/-- The paths of different entries ascend. -/
theorem Distinct.ascending (distinct : findings.Distinct) :
    (findings.byPath.map Prod.fst).Pairwise (· < ·) := by
  have nodup : (findings.byPath.map Prod.fst).Nodup :=
    (findings.perm_byPath.map Prod.fst).nodup_iff.mpr distinct
  have ordered : (findings.byPath.map Prod.fst).Pairwise (· ≤ ·) :=
    List.pairwise_map.mpr findings.pairwise_byPath
  refine ordered.imp₂ (fun a b le ne => ?_) nodup
  exact String.not_le.mp fun ge => ne (String.le_antisymm le ge)

/-- Whether a path is among those of some of the entries depends on its own entry. -/
theorem Distinct.fst_mem_filter_byPath_iff (distinct : findings.Distinct)
    {chosen : String × List String → Bool} {entry : String × List String}
    (mem : entry ∈ findings.entries) :
    entry.1 ∈ (findings.byPath.filter chosen).map Prod.fst ↔ chosen entry = true := by
  rw [List.mem_map]
  constructor
  · rintro ⟨other, otherMem, same⟩
    obtain ⟨visited, otherChosen⟩ := List.mem_filter.mp otherMem
    have found := findings.perm_byPath.mem_iff.mp visited
    exact distinct.eq_of_fst_eq found mem same ▸ otherChosen
  · intro entryChosen
    exact ⟨entry, List.mem_filter.mpr ⟨findings.perm_byPath.mem_iff.mpr mem, entryChosen⟩, rfl⟩

/-- Findings with the same entries are visited in the same order. -/
theorem Distinct.byPath_eq_of_perm (distinct : findings.Distinct)
    (perm : other.entries.Perm findings.entries) : other.byPath = findings.byPath :=
  mergeSort_key_eq_of_perm distinct perm

/-! ## Findings in order -/

/-- What was found, put in order: the paths, and the identifiers of each of them. -/
def canonical (findings : Findings) : List (String × List String) :=
  findings.byPath.map fun entry => (entry.1, sorted entry.2)

theorem length_canonical (findings : Findings) : findings.canonical.length = findings.entries.length :=
  (List.length_map _).trans findings.perm_byPath.length_eq

theorem canonical_eq_nil_iff : findings.canonical = [] ↔ findings.isEmpty = true := by
  rw [isEmpty, List.isEmpty_iff_length_eq_zero, ← length_canonical, List.length_eq_zero_iff]

/-- Putting findings in order neither adds identifiers nor drops any. -/
theorem perm_identifiers_canonical (findings : Findings) :
    (findings.canonical.flatMap (·.2)).Perm (findings.entries.flatMap (·.2)) := by
  rw [canonical, List.flatMap_map]
  exact findings.perm_byPath.flatMap fun entry _ => Entries.perm_sorted entry.2

theorem byPath_of_ascending (ascending : findings.entries.Pairwise fun a b => a.1 ≤ b.1) :
    findings.byPath = findings.entries := by
  apply List.mergeSort_of_pairwise
  simpa only [decide_eq_true_eq] using ascending

theorem sorted_of_ascending {texts : List String} (ascending : texts.Pairwise (· ≤ ·)) :
    sorted texts = texts := by
  apply List.mergeSort_of_pairwise
  simpa only [decide_eq_true_eq] using ascending

/-- What is in order stays as it is. -/
theorem canonical_of_ascending (paths : findings.entries.Pairwise fun a b => a.1 ≤ b.1)
    (names : ∀ entry ∈ findings.entries, entry.2.Pairwise (· ≤ ·)) :
    findings.canonical = findings.entries := by
  have same : ∀ entry ∈ findings.entries, (entry.1, sorted entry.2) = entry :=
    fun entry mem => Prod.ext rfl (sorted_of_ascending (names entry mem))
  rw [canonical, byPath_of_ascending paths, List.map_congr_left same, List.map_id']

/-- The entries of findings in another order, each with its identifiers in another order. -/
def Rearranges (findings other : Findings) : Prop :=
  ∃ moved, findings.entries.Perm moved ∧
    List.Forall₂ (fun entry again => entry.1 = again.1 ∧ entry.2.Perm again.2) moved other.entries

/-- Findings in another order are the same once they are put in order. -/
theorem Distinct.canonical_of_rearranges (distinct : findings.Distinct)
    (rearranges : findings.Rearranges other) : other.canonical = findings.canonical := by
  obtain ⟨moved, perm, each⟩ := rearranges
  have same : Entries.inOrder other.entries = Entries.inOrder moved := by
    rw [eq_comm, Entries.inOrder, Entries.inOrder, ← List.forall₂_eq_eq_eq, List.forall₂_map_left_iff,
      List.forall₂_map_right_iff]
    exact each.imp fun _ _ again => Prod.ext again.1 (Entries.sorted_eq_iff.mpr again.2)
  refine (Entries.Distinct.canonical_eq_iff_perm distinct).mpr ?_
  rw [same]
  exact (perm.map _).symm

end StringAudit.Findings
