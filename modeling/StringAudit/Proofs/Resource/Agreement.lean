import Mathlib.Tactic.Common
import StringAudit.Proofs.Resource.Removal

/-!
# Removal and reading agree line by line

Three functions look at a line: the test whether it is an identifier line, reading, and removal.  Removal
takes away exactly those lines that read as one unwanted identifier when they are read as texts of their
own.  Of what is taken away nothing else remains, and nothing is added: what is left is a subsequence of
the text, so that it is shorter unless it is the text itself.
-/

namespace StringAudit

namespace Text

theorem prefix_unlines_cons (line : List Char) (rest : List (List Char)) :
    line <+: unlines (line :: rest) := by
  by_cases last : rest = []
  · simp [last, unlines]
  · rw [unlines, List.intercalate_cons_of_ne_nil last, List.append_assoc]
    exact List.prefix_append _ _

/-- A text of some of the lines of another one is a subsequence of it. -/
theorem unlines_sublist {part full : List (List Char)} (sub : part.Sublist full) :
    (unlines part).Sublist (unlines full) := by
  induction sub with
  | slnil => exact .slnil
  | @cons part rest line sub ih =>
      by_cases last : rest = []
      · subst last
        rw [List.sublist_nil.mp sub]
        exact List.nil_sublist _
      · rw [unlines, unlines, List.intercalate_cons_of_ne_nil last]
        exact ih.trans (List.sublist_append_right _ _)
  | @cons_cons part rest line sub ih =>
      -- The last line of the part has no newline behind it, whether or not it is the last one of all.
      by_cases lastKept : part = []
      · subst lastKept
        simpa [unlines] using (prefix_unlines_cons line rest).sublist
      · have more : rest ≠ [] := by
          rintro rfl
          exact lastKept (List.sublist_nil.mp sub)
        rw [unlines, unlines, List.intercalate_cons_of_ne_nil lastKept,
          List.intercalate_cons_of_ne_nil more]
        exact (List.Sublist.refl _).append ih

end Text

namespace Resource

variable {unwanted : List String} {line : List Char} {text : String}

/-- The line, read as a text of its own, gives one identifier, which is unwanted. -/
def Struck (unwanted : List String) (line : List Char) : Prop :=
  ∃ name ∈ unwanted, identifiers (String.ofList line) = .ok [name]

instance : Decidable (Struck unwanted line) :=
  inferInstanceAs (Decidable (∃ name ∈ unwanted, identifiers (String.ofList line) = .ok [name]))

/-- A line without newlines is a text of one line. -/
theorem identifiers_line (whole : '\n' ∉ line) :
    identifiers (String.ofList line) = identifiersFrom 1 [line] := by
  have lines : Text.lines line = [line] := by
    simpa [Text.unlines] using Text.lines_unlines (List.cons_ne_nil line []) (by simpa using whole)
  rw [identifiers, String.toList_ofList, lines]

/-- The line test and the search for the quotes say what is removed. -/
theorem keeps_iff_upToQuote? :
    keeps unwanted line = true ↔ (isIdentifierLine line = true →
      ∀ name, upToQuote? (Text.trim line) = some name → String.ofList name ∉ unwanted) := by
  rw [keeps, readLine]
  cases isLine : isIdentifierLine line <;> cases quoted : upToQuote? (Text.trim line) <;> simp

/-- Reading says what is removed. -/
theorem struck_iff (whole : '\n' ∉ line) : Struck unwanted line ↔ keeps unwanted line = false := by
  rw [Struck, identifiers_line whole, keeps]
  cases reading : readLine line with
  | identifier name => simp [identifiersFrom, reading, Functor.map, Except.map]
  | other => simp [identifiersFrom, reading]
  | unclosed trimmed => simp [identifiersFrom, reading]

/-! ## The lines that are left -/

/-- The lines that stay are those that do not read as one unwanted identifier. -/
theorem remaining_eq_filter (unwanted : List String) (text : String) :
    remaining unwanted text = (Text.lines text.toList).filter fun line => ¬ Struck unwanted line := by
  apply List.filter_congr
  intro line mem
  rw [Bool.eq_iff_iff, decide_eq_true_iff, struck_iff (Text.newline_notMem_of_mem_lines mem),
    Bool.not_eq_false]

/-- All lines that stay are lines of what is left. -/
theorem remaining_sublist (unwanted : List String) (text : String) :
    (remaining unwanted text).Sublist (Text.lines (removing unwanted text).toList) := by
  rw [lines_removing]
  split
  · rename_i noLines
    rw [noLines]
    exact List.nil_sublist _
  · exact List.Sublist.refl _

theorem removing_sublist (unwanted : List String) (text : String) :
    (removing unwanted text).toList.Sublist text.toList := by
  have sub := Text.unlines_sublist
    (List.filter_sublist (p := keeps unwanted) (l := Text.lines text.toList))
  rwa [Text.unlines_lines, ← String.toList_ofList (l := Text.unlines _), ← removing] at sub

/-- Whether a line is none that removal could take away: it is no identifier line, or it has no closing
quote. -/
def passes (line : List Char) : Bool :=
  !isIdentifierLine line || (upToQuote? (Text.trim line)).isNone

theorem keeps_of_passes (pass : passes line = true) : keeps unwanted line = true := by
  rw [keeps_iff_upToQuote?]
  intro isLine name quoted
  simp [passes, isLine, quoted] at pass

/-- The lines that removal could not take away are all left. -/
theorem filter_passes_sublist (unwanted : List String) (text : String) :
    ((Text.lines text.toList).filter passes).Sublist (Text.lines (removing unwanted text).toList) := by
  have passing : (Text.lines text.toList).filter passes = (remaining unwanted text).filter passes := by
    rw [remaining, List.filter_filter]
    apply List.filter_congr
    intro line _
    rw [Bool.eq_iff_iff, Bool.and_eq_true]
    exact ⟨fun pass => ⟨pass, keeps_of_passes pass⟩, And.left⟩
  rw [passing]
  exact List.filter_sublist.trans (remaining_sublist unwanted text)

/-- What is left is the text itself or shorter. -/
theorem removing_eq_or_length_lt (unwanted : List String) (text : String) :
    removing unwanted text = text ∨ (removing unwanted text).length < text.length := by
  have sub := removing_sublist unwanted text
  rcases Nat.lt_or_ge (removing unwanted text).length text.length with shorter | full
  · exact Or.inr shorter
  · rw [← String.length_toList, ← String.length_toList] at full
    exact Or.inl (String.toList_inj.mp (sub.eq_of_length_le full))

/-- Removal and reading agree: what is left of a text is its lines, in their order and as they were, but
for those that read as one unwanted identifier.  So all lines are left that are no identifier lines or
have no closing quote.  Nothing changes exactly if no unwanted identifier stands between the first two
quotes of an identifier line, and otherwise the text gets shorter. -/
theorem removing_agrees (unwanted : List String) (text : String) :
    removing unwanted text = String.ofList
        (Text.unlines ((Text.lines text.toList).filter fun line => ¬ Struck unwanted line)) ∧
      ((Text.lines text.toList).filter passes).Sublist (Text.lines (removing unwanted text).toList) ∧
      (removing unwanted text = text ↔
        ∀ line ∈ Text.lines text.toList, isIdentifierLine line = true →
          ∀ name, upToQuote? (Text.trim line) = some name → String.ofList name ∉ unwanted) ∧
      (removing unwanted text = text ∨ (removing unwanted text).length < text.length) := by
  refine ⟨?_, filter_passes_sublist unwanted text, ?_, removing_eq_or_length_lt unwanted text⟩
  · rw [← remaining_eq_filter, remaining, removing]
  · rw [removing_eq_self_iff]
    simp only [keeps_iff_upToQuote?]

end Resource

end StringAudit
