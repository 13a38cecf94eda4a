import StringAudit.Proofs.Resource.Line
import StringAudit.Resource.Identifiers
import StringAudit.Resource.Removal

/-!
# What removal leaves

Removal filters the lines of a text, and cutting its result gives the filtered lines back, except
that a text without lines is the empty text, which has one empty line.  From this follow the lines
and identifiers that are left, and that removing twice is removing once.
-/

namespace StringAudit.Resource

/-! ## The identifiers of lines -/

/-- The identifier of a line, if it has one. -/
def nameOf? (line : List Char) : Option String :=
  match readLine line with
  | .identifier name => some name
  | _ => none

theorem nameOf?_eq_some_iff {line : List Char} {name : String} :
    nameOf? line = some name ↔ Names line name := by
  rw [nameOf?, ← readLine_eq_identifier_iff]
  cases readLine line <;> simp

/-- Reading lines succeeds exactly when none is unfinished, and gives the identifiers of all lines
that have one. -/
theorem identifiersFrom_eq_ok_iff {number : Nat} {ls : List (List Char)} {names : List String} :
    identifiersFrom number ls = .ok names ↔
      (∀ line ∈ ls, ¬ Unfinished line) ∧ names = ls.filterMap nameOf? := by
  induction ls generalizing number names with
  | nil => simp [identifiersFrom, eq_comm]
  | cons line rest ih =>
      cases reading : readLine line with
      | other =>
          have finished : ¬ Unfinished line := fun unfinished => by
            rw [readLine_eq_unclosed_iff.mpr ⟨unfinished, rfl⟩] at reading
            contradiction
          have nameless : nameOf? line = none := by rw [nameOf?, reading]
          simp [identifiersFrom, reading, ih, finished, nameless]
      | identifier name =>
          have finished : ¬ Unfinished line := fun unfinished => by
            rw [readLine_eq_unclosed_iff.mpr ⟨unfinished, rfl⟩] at reading
            contradiction
          have named : nameOf? line = some name := by rw [nameOf?, reading]
          simp only [identifiersFrom, reading, List.mem_cons, forall_eq_or_imp, finished,
            not_false_eq_true, true_and, List.filterMap_cons, named]
          cases readRest : identifiersFrom (number + 1) rest with
          | error unclosed =>
              simp only [Functor.map, Except.map, reduceCtorEq, false_iff]
              rintro ⟨allFinished, _⟩
              rw [ih.mpr ⟨allFinished, rfl⟩] at readRest
              contradiction
          | ok others =>
              obtain ⟨allFinished, rfl⟩ := ih.mp readRest
              simp only [Functor.map, Except.map, Except.ok.injEq, eq_comm]
              exact (and_iff_right allFinished).symm
      | unclosed trimmed =>
          have unfinished := (readLine_eq_unclosed_iff.mp reading).1
          simp [identifiersFrom, reading, unfinished]

/-- The identifiers of a text are those of its lines, if no line is unfinished. -/
theorem identifiers_eq_ok_iff {text : String} {names : List String} :
    identifiers text = .ok names ↔
      (∀ line ∈ Text.lines text.toList, ¬ Unfinished line) ∧
        names = (Text.lines text.toList).filterMap nameOf? :=
  identifiersFrom_eq_ok_iff

/-! ## The lines that are left -/

/-- A line stays exactly when it names nothing that is to be removed. -/
theorem keeps_eq_true_iff {unwanted : List String} {line : List Char} :
    keeps unwanted line = true ↔ ∀ name, Names line name → name ∉ unwanted := by
  simp only [← readLine_eq_identifier_iff, keeps]
  cases readLine line <;> simp

@[simp]
theorem keeps_nil (unwanted : List String) : keeps unwanted [] = true := by
  simp [keeps]

/-- The lines of a text from which identifiers have been removed. -/
def remaining (unwanted : List String) (text : String) : List (List Char) :=
  (Text.lines text.toList).filter (keeps unwanted)

theorem lines_removing (unwanted : List String) (text : String) :
    Text.lines (removing unwanted text).toList =
      if remaining unwanted text = [] then [[]] else remaining unwanted text := by
  rw [removing, String.toList_ofList]
  change Text.lines (Text.unlines (remaining unwanted text)) = _
  split
  · rename_i noLines
    rw [noLines]
    rfl
  · rename_i someLines
    apply Text.lines_unlines someLines
    intro line mem
    exact Text.newline_notMem_of_mem_lines (List.mem_filter.mp mem).1

/-- A line that is left was there before and stays, or it is the empty line of an empty text. -/
theorem mem_lines_removing {unwanted : List String} {text : String} {line : List Char}
    (mem : line ∈ Text.lines (removing unwanted text).toList) :
    (line ∈ Text.lines text.toList ∨ line = []) ∧ keeps unwanted line = true := by
  rw [lines_removing] at mem
  split at mem
  · rw [List.mem_singleton] at mem
    subst line
    exact ⟨Or.inr rfl, keeps_nil unwanted⟩
  · have ⟨old, kept⟩ := List.mem_filter.mp mem
    exact ⟨Or.inl old, kept⟩

/-- Nothing changes exactly if every line stays. -/
theorem removing_eq_self_iff {unwanted : List String} {text : String} :
    removing unwanted text = text ↔ ∀ line ∈ Text.lines text.toList, keeps unwanted line = true := by
  constructor
  · intro same line mem
    have left : line ∈ Text.lines (removing unwanted text).toList := by rwa [same]
    exact (mem_lines_removing left).2
  · intro stay
    rw [removing, List.filter_eq_self.mpr stay, Text.unlines_lines, String.ofList_toList]

/-- Filtering the lines that are left by what also keeps the empty line. -/
theorem unlines_filter_lines_removing (unwanted : List String) (text : String)
    (stays : List Char → Bool) :
    Text.unlines ((Text.lines (removing unwanted text).toList).filter stays) =
      Text.unlines ((remaining unwanted text).filter stays) := by
  rw [lines_removing]
  split
  · rename_i noLines
    rw [noLines]
    cases kept : stays [] <;> simp [kept, Text.unlines]
  · rfl

/-- Removing identifiers twice is removing them all at once. -/
theorem removing_removing (first second : List String) (text : String) :
    removing second (removing first text) = removing (first ++ second) text := by
  have both : ∀ line, (keeps second line && keeps first line) = keeps (first ++ second) line := by
    intro line
    simp only [keeps]
    cases readLine line with
    | identifier name => simp [Bool.and_comm]
    | _ => rfl
  calc
    removing second (removing first text) =
        String.ofList (Text.unlines ((remaining first text).filter (keeps second))) :=
          congrArg String.ofList (unlines_filter_lines_removing first text (keeps second))
    _ = removing (first ++ second) text := by
          simp only [remaining, List.filter_filter, both, removing]

/-- What is left depends on which identifiers are removed, not on their order or how often they are
listed. -/
theorem removing_congr {first second : List String} (same : ∀ name, name ∈ first ↔ name ∈ second)
    (text : String) : removing first text = removing second text := by
  have keepsEq : keeps first = keeps second := by
    funext line
    rw [Bool.eq_iff_iff, keeps_eq_true_iff, keeps_eq_true_iff]
    simp only [same]
  rw [removing, removing, keepsEq]

@[simp]
theorem removing_nil (text : String) : removing [] text = text :=
  removing_eq_self_iff.mpr fun _ _ => keeps_eq_true_iff.mpr fun _ _ => List.not_mem_nil

/-- Removing identifiers a second time changes nothing. -/
@[simp]
theorem removing_idem (unwanted : List String) (text : String) :
    removing unwanted (removing unwanted text) = removing unwanted text := by
  rw [removing_removing]
  exact removing_congr (fun name => by rw [List.mem_append, or_self]) text

/-! ## Removing step by step -/

/-- Removing identifiers in steps is removing those of all steps at once. -/
theorem foldl_removing (steps : List (List String)) (text : String) :
    steps.foldl (fun left step => removing step left) text = removing steps.flatten text := by
  induction steps generalizing text with
  | nil => rw [List.foldl_nil, List.flatten_nil, removing_nil]
  | cons step rest ih => rw [List.foldl_cons, ih, removing_removing, List.flatten_cons]

/-- Removal composes: removing identifiers and then others is removing both at once, in either order, and
so is any sequence of steps that together remove the same identifiers.  Nothing is left to do for a
removal that was made before. -/
theorem removing_composes {first second both : List String}
    (union : ∀ name, name ∈ both ↔ name ∈ first ∨ name ∈ second) (text : String) :
    removing second (removing first text) = removing both text ∧
      removing first (removing second text) = removing both text ∧
      removing both (removing both text) = removing both text ∧
      ∀ steps : List (List String), (∀ name, name ∈ both ↔ ∃ step ∈ steps, name ∈ step) →
        steps.foldl (fun left step => removing step left) text = removing both text := by
  refine ⟨?_, ?_, removing_idem both text, ?_⟩
  · rw [removing_removing]
    exact removing_congr (fun name => by rw [List.mem_append, union]) text
  · rw [removing_removing]
    exact removing_congr (fun name => by rw [List.mem_append, union, or_comm]) text
  · intro steps covers
    rw [foldl_removing]
    exact removing_congr (fun name => by rw [List.mem_flatten, covers]) text

/-- A text with empty lines, two identifiers, and a line at the end that is unclosed. -/
def gappedText : String :=
  "\n\"a\" = \"1\";\n\n \"b\" = \"2\";\n\"a"

/-- What is left of `gappedText` when its identifiers are removed, first one and then both, and one by one
with a repetition. -/
theorem removing_composes_gappedText :
    removing ["b", "a"] (removing ["a"] gappedText) = "\n\n\"a" ∧
      [["b"], ["a"], ["b"]].foldl (fun left step => removing step left) gappedText = "\n\n\"a" := by
  have union : ∀ name, name ∈ ["a", "b"] ↔ name ∈ ["a"] ∨ name ∈ ["b", "a"] := by
    intro name
    simp [or_comm]
  have left : removing ["a", "b"] gappedText = "\n\n\"a" := by decide +kernel
  obtain ⟨inOrder, -, -, inSteps⟩ := removing_composes union gappedText
  have covers : ∀ name, name ∈ ["a", "b"] ↔ ∃ step ∈ [["b"], ["a"], ["b"]], name ∈ step := by
    intro name
    grind
  exact ⟨inOrder.trans left, (inSteps _ covers).trans left⟩

/-! ## The identifiers that are left -/

theorem not_unfinished_nil : ¬ Unfinished [] := by
  rintro ⟨rest, trimmed, _⟩
  simp at trimmed

@[simp]
theorem nameOf?_nil : nameOf? [] = none :=
  rfl

theorem filterMap_nameOf?_removing (unwanted : List String) (text : String) :
    (Text.lines (removing unwanted text).toList).filterMap nameOf? =
      (remaining unwanted text).filterMap nameOf? := by
  rw [lines_removing]
  split
  · rename_i noLines
    rw [noLines]
    rfl
  · rfl

/-- A line that stays names what it named, any other names what is removed. -/
theorem filter_nameOf? (unwanted : List String) (line : List Char) :
    (nameOf? line).filter (· ∉ unwanted) =
      if keeps unwanted line then nameOf? line else none := by
  cases reading : readLine line with
  | identifier name => simp [nameOf?, keeps, reading, Option.filter]
  | other => simp [nameOf?, keeps, reading]
  | unclosed trimmed => simp [nameOf?, keeps, reading]

/-- Removal deletes the unwanted identifiers and keeps the others, in their order. -/
theorem identifiers_removing {unwanted : List String} {text : String} {names : List String}
    (read : identifiers text = .ok names) :
    identifiers (removing unwanted text) = .ok (names.filter (· ∉ unwanted)) := by
  obtain ⟨finished, rfl⟩ := identifiers_eq_ok_iff.mp read
  rw [identifiers_eq_ok_iff]
  constructor
  · intro line mem
    rcases (mem_lines_removing mem).1 with old | rfl
    · exact finished line old
    · exact not_unfinished_nil
  · rw [filterMap_nameOf?_removing, remaining, List.filterMap_filter, List.filter_filterMap]
    simp only [filter_nameOf?]

end StringAudit.Resource
