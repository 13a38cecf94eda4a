import StringAudit.Proofs.Occurrence
import StringAudit.Reference

/-!
# What counts as a reference

A corpus contains a text exactly when the text is an infix of it, so that a reference in one file
survives in every corpus that the file is part of.  The abandoned identifiers of a list are those of
its members to which the corpus does not refer, in order of first occurrence and each once.
-/

namespace StringAudit.Reference

/-- The corpus refers to the identifier: one of its quoted forms occurs in it. -/
def Refers (corpus : List Char) (identifier : String) : Prop :=
  ∃ form ∈ forms identifier, form.toList <:+: corpus

instance (corpus : List Char) (identifier : String) : Decidable (Refers corpus identifier) :=
  inferInstanceAs (Decidable (∃ form ∈ forms identifier, form.toList <:+: corpus))

theorem contains_eq_true_iff (corpus piece : List Char) :
    contains corpus piece = true ↔ piece <:+: corpus := by
  induction corpus with
  | nil =>
      rw [contains, Bool.or_false, List.isPrefixOf_iff_prefix, List.prefix_nil, List.infix_nil]
  | cons c rest ih =>
      rw [contains, Bool.or_eq_true, List.isPrefixOf_iff_prefix, ih, List.infix_cons_iff]

theorem isAbandoned_eq_true_iff (corpus identifier : String) :
    isAbandoned corpus identifier = true ↔ ¬ Refers corpus.toList identifier := by
  rw [isAbandoned, Bool.not_eq_true', List.any_eq_false]
  simp only [contains_eq_true_iff, Refers]
  constructor
  · rintro missing ⟨form, mem, occurs⟩
    exact missing form mem occurs
  · intro dead form mem occurs
    exact dead ⟨form, mem, occurs⟩

/-- A reference in one part of a corpus is a reference in the whole. -/
theorem Refers.mono {piece corpus : List Char} {identifier : String} (refers : Refers piece identifier)
    (part : piece <:+: corpus) : Refers corpus identifier := by
  obtain ⟨form, mem, occurs⟩ := refers
  exact ⟨form, mem, occurs.trans part⟩

/-- A text that holds an identifier in double quotes refers to it. -/
theorem refers_of_quoted {corpus : List Char} {identifier : String}
    (quoted : '"' :: (identifier.toList ++ ['"']) <:+: corpus) : Refers corpus identifier := by
  refine ⟨"\"" ++ identifier ++ "\"", by simp [forms], ?_⟩
  simpa using quoted

/-- Beyond those listed already, the others to which the corpus does not refer are listed once each. -/
theorem abandonedBeyond_eq (corpus : String) (found identifiers : List String) :
    abandonedBeyond corpus found identifiers =
      (identifiers.filter fun i => i ∉ found ∧ ¬ Refers corpus.toList i).eraseDups := by
  induction identifiers generalizing found with
  | nil => rfl
  | cons i rest ih =>
      have skipped : (found.contains i || !isAbandoned corpus i) = true ↔
          ¬ (i ∉ found ∧ ¬ Refers corpus.toList i) := by
        rw [← isAbandoned_eq_true_iff, Bool.or_eq_true, List.contains_iff_mem, Bool.not_eq_true',
          Bool.eq_false_iff, not_and_or, not_not]
      rw [abandonedBeyond]
      by_cases taken : i ∉ found ∧ ¬ Refers corpus.toList i
      · rw [if_neg (fun skip => skipped.mp skip taken), ih, List.filter_cons_of_pos (by simpa using taken),
          List.eraseDups_cons, List.filter_filter]
        -- An identifier listed now is kept out of the rest by `found`, and there by `eraseDups`.
        congr 2
        apply List.filter_congr
        intro other _
        by_cases same : other = i <;> simp [same]
      · rw [if_pos (skipped.mpr taken), ih, List.filter_cons_of_neg (by simpa using taken)]

/-- The abandoned identifiers are those to which the corpus does not refer, in order of first occurrence
and each once. -/
theorem abandoned_eq (corpus : String) (identifiers : List String) :
    abandoned corpus identifiers =
      (identifiers.filter fun i => ¬ Refers corpus.toList i).eraseDups := by
  rw [abandoned, abandonedBeyond_eq]
  simp

/-- The abandoned ones are those to which the corpus does not refer. -/
theorem mem_abandoned_iff {corpus : String} {identifiers : List String} {i : String} :
    i ∈ abandoned corpus identifiers ↔ i ∈ identifiers ∧ ¬ Refers corpus.toList i := by
  rw [abandoned_eq, List.mem_eraseDups, List.mem_filter, decide_eq_true_iff]

/-- What is abandoned depends on the corpus only by its references to the identifiers in question. -/
theorem abandoned_congr {corpus corpus' : String} {identifiers : List String}
    (same : ∀ i ∈ identifiers, Refers corpus.toList i ↔ Refers corpus'.toList i) :
    abandoned corpus identifiers = abandoned corpus' identifiers := by
  rw [abandoned_eq, abandoned_eq]
  congr 1
  refine List.filter_congr fun i mem => ?_
  rw [decide_eq_decide, same i mem]

end StringAudit.Reference
