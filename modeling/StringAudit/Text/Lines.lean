/-!
# Lines

A text is cut into lines at the newline U+000A alone: a carriage return, a form feed and the Unicode
line separators stay inside their line.  A text always has at least one line, and joining the lines of
a text gives the text back (`unlines_lines`).
-/

namespace StringAudit.Text

/-- The lines of a text, without their newlines. -/
def lines (text : List Char) : List (List Char) :=
  text.splitOn '\n'

/-- The text that has the given lines. -/
def unlines (ls : List (List Char)) : List Char :=
  ['\n'].intercalate ls

/-- Cutting a text into lines loses nothing. -/
@[simp]
theorem unlines_lines (text : List Char) : unlines (lines text) = text :=
  List.intercalate_splitOn '\n'

/-- The empty text has one line, which is empty. -/
@[simp]
theorem lines_nil : lines [] = [[]] :=
  rfl

@[simp]
theorem lines_ne_nil (text : List Char) : lines text ≠ [] :=
  List.splitOn_ne_nil _ _

/-- No part of a cut text holds the character at which it was cut. -/
theorem notMem_of_mem_splitOn {separator : Char} {text part : List Char}
    (mem : part ∈ text.splitOn separator) : separator ∉ part := by
  induction text generalizing part with
  | nil =>
      rw [List.splitOn_nil, List.mem_singleton] at mem
      subst part
      exact List.not_mem_nil
  | cons c rest ih =>
      obtain ⟨first, others, restParts⟩ := List.exists_cons_of_ne_nil (List.splitOn_ne_nil separator rest)
      rw [List.splitOn_cons_eq_if_modifyHead] at mem
      split at mem
      · rcases List.mem_cons.mp mem with rfl | mem
        · exact List.not_mem_nil
        · exact ih mem
      · rename_i different
        rw [restParts, List.modifyHead_cons, List.mem_cons] at mem
        rcases mem with rfl | mem
        · rw [List.mem_cons, not_or]
          exact ⟨fun same => different (by simp [← same]), ih (restParts ▸ List.mem_cons_self)⟩
        · exact ih (restParts ▸ List.mem_cons_of_mem _ mem)

/-- No line holds a newline. -/
theorem newline_notMem_of_mem_lines {line text : List Char} (mem : line ∈ lines text) :
    '\n' ∉ line :=
  notMem_of_mem_splitOn mem

theorem isInfix_of_mem_unlines {line : List Char} {ls : List (List Char)} (mem : line ∈ ls) :
    line <:+: unlines ls := by
  induction ls with
  | nil => exact absurd mem List.not_mem_nil
  | cons first rest ih =>
      by_cases last : rest = []
      · subst last
        obtain rfl := List.mem_singleton.mp mem
        simp [unlines]
      · rw [unlines, List.intercalate_cons_of_ne_nil last]
        rcases List.mem_cons.mp mem with rfl | later
        · exact List.infix_append_of_infix_left List.infix_append_left
        · exact List.infix_append_of_infix_right (ih later)

/-- Every line is a part of the text. -/
theorem isInfix_of_mem_lines {line text : List Char} (mem : line ∈ lines text) : line <:+: text := by
  have part := isInfix_of_mem_unlines mem
  rwa [unlines_lines] at part

/-- Lines without newlines are the lines of the text that they make, unless there are none. -/
theorem lines_unlines {ls : List (List Char)} (nonempty : ls ≠ [])
    (clean : ∀ line ∈ ls, '\n' ∉ line) : lines (unlines ls) = ls :=
  List.splitOn_intercalate '\n' clean nonempty

/-- A text behind a newline has its lines behind those in front of the newline. -/
theorem lines_append (front back : List Char) : lines (front ++ '\n' :: back) = lines front ++ lines back :=
  List.splitOn_append_cons_self front back

/-- A newline at the end of a text is followed by one more line, which is empty. -/
theorem lines_append_newline (text : List Char) : lines (text ++ ['\n']) = lines text ++ [[]] :=
  lines_append text []

/-- A text has a newline behind each line but the last. -/
theorem unlines_concat (above : List (List Char)) (last : List Char) :
    unlines (above ++ [last]) = above.flatMap (· ++ ['\n']) ++ last := by
  induction above with
  | nil => simp [unlines]
  | cons line rest ih =>
      rw [List.cons_append, unlines, List.intercalate_cons_of_ne_nil (by simp), ← unlines, ih,
        List.flatMap_cons, List.append_assoc, List.append_assoc, List.append_assoc]

/-- Lines without newlines, each with a newline behind it, are followed by one more line, which is empty. -/
theorem lines_flatMap_newline {ls : List (List Char)} (clean : ∀ line ∈ ls, '\n' ∉ line) :
    lines (ls.flatMap (· ++ ['\n'])) = ls ++ [[]] := by
  rw [← List.append_nil (ls.flatMap _), ← unlines_concat]
  refine lines_unlines (by simp) fun line mem => ?_
  rcases List.mem_append.mp mem with inside | last
  · exact clean line inside
  · rw [List.mem_singleton.mp last]
    exact List.not_mem_nil

end StringAudit.Text
