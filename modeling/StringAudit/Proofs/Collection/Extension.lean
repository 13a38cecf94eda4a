import Mathlib.Tactic.Common
import StringAudit.Collection

/-!
# Extensions of file names

The extension of a file name is what stands behind its last full stop, unless all in front of that are
full stops too.  A search looks for a name exactly if the small letters of its extension are among the
extensions that it was given.
-/

namespace StringAudit

open Text

namespace Text

/-! ## Small letters -/

theorem meetsCased_append_dot (before : List Char) : meetsCased (before ++ ['.']) = meetsCased before := by
  have ignorable : inRanges caseIgnorableRanges '.' = true := by decide +kernel
  rw [meetsCased, meetsCased, List.find?_append, List.find?_singleton, ignorable]
  simp

/-- A full stop in front of a text does not change its small letters. -/
theorem lowerAfter_append_dot (before s : List Char) :
    lowerAfter (before ++ ['.']) s = lowerAfter before s := by
  induction s generalizing before with
  | nil => rfl
  | cons c rest ih =>
      rw [lowerAfter, lowerAfter, meetsCased_append_dot, ← List.cons_append, ih]

theorem lowercase_dot_cons (s : List Char) : lowercase ('.' :: s) = '.' :: lowercase s := by
  have dot : lowerChar '.' = ['.'] := by decide +kernel
  rw [lowercase, lowerAfter, if_neg (by decide), dot, ← List.nil_append ['.'], lowerAfter_append_dot]
  rfl

theorem eq_of_ofNat_eq_dot {n : Nat} (same : Char.ofNat n = '.') : n = 46 := by
  by_cases valid : n.isValidChar
  · have usual : Char.ofNat n = Char.ofNatAux n valid := dif_pos valid
    exact congrArg Char.toNat (usual.symm.trans same)
  · have replaced : Char.ofNat n = '\x00' := dif_neg valid
    exact absurd (replaced.symm.trans same) (by decide)

/-- No character but the full stop itself becomes one. -/
theorem dot_notMem_lowerChar {c : Char} (different : c ≠ '.') : '.' ∉ lowerChar c := by
  have beyond : ∀ run ∈ capitalRuns, 46 < (run.first : Int) + run.shift := by decide +kernel
  rw [lowerChar]
  split
  · decide
  split
  · rename_i run found
    have covered : run.first ≤ c.toNat := by
      have covers := List.find?_some found
      rw [CaseRun.covers, Bool.and_eq_true, Bool.and_eq_true] at covers
      exact of_decide_eq_true covers.1.1
    have later := beyond run (List.mem_of_find?_eq_some found)
    rw [List.mem_singleton]
    intro same
    have code := eq_of_ofNat_eq_dot same.symm
    omega
  · rw [List.mem_singleton]
    exact Ne.symm different

theorem dot_notMem_lowerAfter {s : List Char} (absent : '.' ∉ s) (before : List Char) :
    '.' ∉ lowerAfter before s := by
  induction s generalizing before with
  | nil => exact List.not_mem_nil
  | cons c rest ih =>
      rw [List.mem_cons, not_or] at absent
      rw [lowerAfter, List.mem_append, not_or]
      refine ⟨?_, ih absent.2 _⟩
      split
      · split <;> decide
      · exact dot_notMem_lowerChar (Ne.symm absent.1)

end Text

namespace Path

/-! ## What stands behind the last full stop -/

/-- The extension of a name, which ends in a full stop and what is free of full stops. -/
theorem extension_append {stem rest : List Char} (absent : '.' ∉ rest) :
    extension (stem ++ '.' :: rest) = if stem.any (· ≠ '.') then '.' :: rest else [] := by
  have free : ∀ c ∈ rest.reverse, decide (c ≠ '.') = true := by
    intro c mem
    rw [decide_eq_true_iff]
    rintro rfl
    exact absent (List.mem_reverse.mp mem)
  have back : (stem ++ '.' :: rest).reverse = rest.reverse ++ '.' :: stem.reverse := by simp
  rw [extension, back, List.dropWhile_append_of_pos free, List.takeWhile_append_of_pos free]
  simp

theorem extension_eq_nil {name : List Char} (absent : '.' ∉ name) : extension name = [] := by
  have free : ∀ c ∈ name.reverse, decide (c ≠ '.') = true := by
    intro c mem
    rw [decide_eq_true_iff]
    rintro rfl
    exact absent (List.mem_reverse.mp mem)
  have all : name.reverse.dropWhile (· ≠ '.') = [] := by
    rw [← List.append_nil name.reverse, List.dropWhile_append_of_pos free, List.dropWhile_nil]
  rw [extension, all]
  rfl

/-- A name with a full stop is cut at its last one. -/
theorem exists_last_dot {name : List Char} (mem : '.' ∈ name) :
    ∃ stem rest, name = stem ++ '.' :: rest ∧ '.' ∉ rest := by
  obtain ⟨rest, stem, back, absent⟩ := List.eq_append_cons_of_mem (List.mem_reverse.mpr mem)
  refine ⟨stem.reverse, rest.reverse, ?_, by rwa [List.mem_reverse]⟩
  rw [← List.reverse_reverse name, back]
  simp

end Path

namespace Collection

/-- A file name has one of the extensions: behind its last full stop, in small letters.  Full stops at the
start of the name begin no extension. -/
def HasExtension (extensions : List (List Char)) (name : String) : Prop :=
  ∃ stem extension, name.toList = stem ++ '.' :: extension ∧ '.' ∉ extension ∧ (∃ c ∈ stem, c ≠ '.') ∧
    Text.lowercase extension ∈ extensions

theorem plainExtension_dot_cons {extension : List Char} (absent : '.' ∉ extension) :
    plainExtension ('.' :: extension) = Text.lowercase extension := by
  have small : '.' ∉ Text.lowercase extension := dot_notMem_lowerAfter absent []
  rw [plainExtension, lowercase_dot_cons, List.dropWhile_cons_of_pos (by simp)]
  cases chars : Text.lowercase extension with
  | nil => rfl
  | cons c rest =>
      have different : c ≠ '.' := by
        rintro rfl
        exact small (chars ▸ List.mem_cons_self)
      exact List.dropWhile_cons_of_neg (by simpa using different)

/-- A search looks for the names that have one of its extensions. -/
theorem matches_iff {search : Search} {name : String} :
    search.matches name = true ↔ HasExtension search.extensions name := by
  rw [Search.matches, Bool.and_eq_true, decide_eq_true_iff, List.contains_iff_mem]
  constructor
  · rintro ⟨nonempty, wanted⟩
    by_cases mem : '.' ∈ name.toList
    · obtain ⟨stem, extension, nameEq, absent⟩ := Path.exists_last_dot mem
      rw [nameEq, Path.extension_append absent] at nonempty wanted
      by_cases some : stem.any (· ≠ '.') = true
      · rw [if_pos some, plainExtension_dot_cons absent] at wanted
        exact ⟨stem, extension, nameEq, absent, by simpa using some, wanted⟩
      · exact absurd (if_neg some) nonempty
    · exact absurd (Path.extension_eq_nil mem) nonempty
  · rintro ⟨stem, extension, nameEq, absent, some, wanted⟩
    rw [nameEq, Path.extension_append absent, if_pos (by simpa using some), plainExtension_dot_cons absent]
    exact ⟨List.cons_ne_nil _ _, wanted⟩

end Collection

end StringAudit
