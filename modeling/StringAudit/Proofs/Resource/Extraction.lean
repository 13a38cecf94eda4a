import StringAudit.Proofs.First
import StringAudit.Proofs.Reference
import StringAudit.Proofs.Resource.Removal

/-!
# Reading the identifiers of what is left

Reading a text fails at its first unfinished line, and removal keeps all unfinished lines.  So what is
left of a text can be read exactly if the text can.  If it can, removal deletes the unwanted identifiers
from what is read; if not, the line at which reading fails is still the same and has moved up by the lines
that were removed above it.
-/

namespace StringAudit

/-- Nothing is abandoned among names without those that are. -/
theorem Reference.abandoned_among_others (corpus : String) (allowed names : List String) :
    abandoned corpus
      ((names.filter (· ∉ abandoned corpus (names.filter (· ∉ allowed)))).filter (· ∉ allowed)) = [] := by
  rw [List.eq_nil_iff_forall_not_mem]
  intro name mem
  obtain ⟨listed, dead⟩ := mem_abandoned_iff.mp mem
  obtain ⟨other, unallowed⟩ := List.mem_filter.mp listed
  obtain ⟨old, notAbandoned⟩ := List.mem_filter.mp other
  have candidate : name ∈ names.filter (· ∉ allowed) := List.mem_filter.mpr ⟨old, unallowed⟩
  exact of_decide_eq_true notAbandoned (mem_abandoned_iff.mpr ⟨candidate, dead⟩)

namespace Resource

/-! ## Where reading fails -/

/-- Reading lines fails at the first unfinished one. -/
theorem identifiersFrom_eq_error_iff {number : Nat} {ls : List (List Char)} {unclosed : Unclosed} :
    identifiersFrom number ls = .error unclosed ↔
      ∃ above line, IsFirst Unfinished ls above line ∧
        unclosed = ⟨String.ofList (Text.trim line), number + above.length⟩ := by
  induction ls generalizing number with
  | nil => simp [identifiersFrom, IsFirst.not_nil]
  | cons line rest ih =>
      by_cases unfinished : Unfinished line
      · simp [identifiersFrom, readLine_eq_unclosed_iff.mpr ⟨unfinished, rfl⟩, IsFirst.cons_iff, unfinished,
          eq_comm]
      · have onward : identifiersFrom number (line :: rest) = .error unclosed ↔
            identifiersFrom (number + 1) rest = .error unclosed := by
          rw [identifiersFrom]
          cases reading : readLine line with
          | other => exact Iff.rfl
          | identifier name => exact Except.map_eq_error_iff
          | unclosed trimmed => exact absurd (readLine_eq_unclosed_iff.mp reading).1 unfinished
        rw [onward, ih]
        constructor
        · rintro ⟨above, last, first, rfl⟩
          refine ⟨line :: above, last, IsFirst.cons_iff.mpr (Or.inr ⟨above, unfinished, rfl, first⟩), ?_⟩
          rw [List.length_cons, Nat.add_right_comm, Nat.add_assoc]
        · rintro ⟨above, last, first, rfl⟩
          obtain ⟨now, -, -⟩ | ⟨others, -, rfl, later⟩ := IsFirst.cons_iff.mp first
          · exact absurd now unfinished
          · refine ⟨others, last, later, ?_⟩
            rw [List.length_cons, Nat.add_right_comm, Nat.add_assoc]

/-- A text is unusable from its first unfinished line on. -/
theorem identifiers_eq_error_iff {text : String} {unclosed : Unclosed} :
    identifiers text = .error unclosed ↔
      ∃ above line, IsFirst Unfinished (Text.lines text.toList) above line ∧
        unclosed = ⟨String.ofList (Text.trim line), above.length + 1⟩ := by
  rw [identifiers, identifiersFrom_eq_error_iff]
  simp only [Nat.add_comm]

/-! ## Reading what is left -/

/-- An unfinished line names nothing, so it stays. -/
theorem Unfinished.keeps {line : List Char} (unfinished : Unfinished line) (unwanted : List String) :
    keeps unwanted line = true := by
  rw [Resource.keeps, readLine_eq_unclosed_iff.mpr ⟨unfinished, rfl⟩]

/-- How many lines above the one with the given number are removed. -/
def removedAbove (unwanted : List String) (text : String) (number : Nat) : Nat :=
  ((Text.lines text.toList).take (number - 1)).countP fun line => !keeps unwanted line

/-- The first unfinished line of a text is that of what is left; above it are those lines that stay. -/
theorem isFirst_removing {unwanted : List String} {text : String} {above : List (List Char)}
    {line : List Char} (first : IsFirst Unfinished (Text.lines text.toList) above line) :
    IsFirst Unfinished (Text.lines (removing unwanted text).toList) (above.filter (keeps unwanted)) line := by
  have firstLeft : IsFirst Unfinished (remaining unwanted text) (above.filter (keeps unwanted)) line :=
    first.filter (first.holds.keeps unwanted)
  rwa [lines_removing, if_neg (List.ne_nil_of_mem firstLeft.mem)]

/-- The lines above one of a text, those that are removed and those that stay. -/
theorem removedAbove_add (unwanted : List String) {text : String} {above : List (List Char)}
    {line : List Char} (first : IsFirst Unfinished (Text.lines text.toList) above line) :
    removedAbove unwanted text (above.length + 1) + (above.filter (keeps unwanted)).length =
      above.length := by
  obtain ⟨back, split⟩ := first.split
  rw [removedAbove, split, Nat.add_sub_cancel, List.take_left, ← List.countP_eq_length_filter,
    Nat.add_comm, List.length_eq_countP_add_countP (keeps unwanted)]
  simp

theorem identifiers_removing_eq_error (unwanted : List String) {text : String} {unclosed : Unclosed}
    (failed : identifiers text = .error unclosed) :
    removedAbove unwanted text unclosed.number < unclosed.number ∧
      identifiers (removing unwanted text) =
        .error ⟨unclosed.line, unclosed.number - removedAbove unwanted text unclosed.number⟩ := by
  obtain ⟨above, line, first, rfl⟩ := identifiers_eq_error_iff.mp failed
  have counted := removedAbove_add unwanted first
  refine ⟨by dsimp only; omega, identifiers_eq_error_iff.mpr ⟨_, line, isFirst_removing first, ?_⟩⟩
  rw [Unclosed.mk.injEq]
  exact ⟨rfl, by dsimp only; omega⟩

theorem exists_identifiers_removing_iff {unwanted : List String} {text : String} :
    (∃ left, identifiers (removing unwanted text) = .ok left) ↔ ∃ names, identifiers text = .ok names := by
  constructor
  · rintro ⟨left, readLeft⟩
    cases read : identifiers text with
    | ok names => exact ⟨names, rfl⟩
    | error unclosed =>
        cases readLeft.symm.trans (identifiers_removing_eq_error unwanted read).2
  · rintro ⟨names, read⟩
    exact ⟨_, identifiers_removing read⟩

/-- What is left of a text can be read exactly if the text can.  Then the unwanted identifiers are deleted
from those of the text, and the others are as before.  Otherwise reading fails at the same line, which has
moved up by the lines that were removed above it.  So nothing is left to report once the identifiers of a
text that are neither allowed nor referred to have been removed. -/
theorem identifiers_after_removal (unwanted : List String) (text : String) :
    ((∃ left, identifiers (removing unwanted text) = .ok left) ↔
        ∃ names, identifiers text = .ok names) ∧
      (∀ names, identifiers text = .ok names →
        identifiers (removing unwanted text) = .ok (names.filter (· ∉ unwanted))) ∧
      (∀ unclosed, identifiers text = .error unclosed →
        removedAbove unwanted text unclosed.number < unclosed.number ∧
          identifiers (removing unwanted text) =
            .error ⟨unclosed.line, unclosed.number - removedAbove unwanted text unclosed.number⟩) ∧
      ∀ (corpus : String) (allowed names : List String), identifiers text = .ok names →
        ∃ left, identifiers (removing (Reference.abandoned corpus (names.filter (· ∉ allowed))) text) =
            .ok left ∧
          Reference.abandoned corpus (left.filter (· ∉ allowed)) = [] := by
  refine ⟨exists_identifiers_removing_iff, fun _ => identifiers_removing,
    fun _ => identifiers_removing_eq_error unwanted, ?_⟩
  intro corpus allowed names read
  exact ⟨_, identifiers_removing read, Reference.abandoned_among_others corpus allowed names⟩

/-- A text with three identifier lines, two of them of one identifier. -/
def repeatedText : String :=
  "\"a\" = \"1\";\n\"b\" = \"2\";\n\"a\" = \"3\";"

/-- The unclosed line of `gappedText` moves up from the fifth to the third line, and nothing is left to
report of `repeatedText`. -/
theorem identifiers_after_removal_gappedText :
    identifiers gappedText = .error ⟨"\"a", 5⟩ ∧
      identifiers (removing ["b", "a"] gappedText) = .error ⟨"\"a", 3⟩ ∧
      identifiers repeatedText = .ok ["a", "b", "a"] ∧
      identifiers (removing ["b"] repeatedText) = .ok ["a", "a"] ∧
      ∃ left, identifiers (removing (Reference.abandoned "f(x)" (["a", "b", "a"].filter (· ∉ ["b"])))
          repeatedText) = .ok left ∧
        Reference.abandoned "f(x)" (left.filter (· ∉ ["b"])) = [] := by
  have failed : identifiers gappedText = .error ⟨"\"a", 5⟩ := by decide +kernel
  have read : identifiers repeatedText = .ok ["a", "b", "a"] := by decide +kernel
  obtain ⟨-, -, fails, -⟩ := identifiers_after_removal ["b", "a"] gappedText
  obtain ⟨-, reads, -, reports⟩ := identifiers_after_removal ["b"] repeatedText
  obtain ⟨-, failsLeft⟩ := fails _ failed
  refine ⟨failed, failsLeft.trans ?_, read, (reads _ read).trans ?_, reports "f(x)" ["b"] _ read⟩
  all_goals decide +kernel

end Resource

end StringAudit
