import Mathlib.Data.List.Basic
import StringAudit.Proofs.Resource.Padding

/-!
# Removal and carriage returns

Lines are cut at the newline alone, so a carriage return in front of a newline belongs to the line that
it ends.  A line with it says what it says without, and a line that stays keeps it.  So removal is the
same in a text whose newlines all have a carriage return, except at the end: if the last line goes and
another one stays, the return of the last line that stays is left at the end of the text, with no newline
behind it.
-/

namespace StringAudit

namespace Text

/-- The text with a carriage return in front of every newline. -/
def withReturns (text : List Char) : List Char :=
  text.flatMap fun c => if c = '\n' then ['\r', '\n'] else [c]

theorem withReturns_append (front back : List Char) :
    withReturns (front ++ back) = withReturns front ++ withReturns back :=
  List.flatMap_append

theorem withReturns_of_whole {line : List Char} (whole : '\n' ∉ line) : withReturns line = line := by
  induction line with
  | nil => rfl
  | cons c rest ih =>
      rw [List.mem_cons, not_or] at whole
      rw [withReturns, List.flatMap_cons, if_neg (Ne.symm whole.1), ← withReturns, ih whole.2]
      rfl

theorem exists_lines (text : List Char) : ∃ above last, lines text = above ++ [last] :=
  (List.eq_nil_or_concat' (lines text)).resolve_left (lines_ne_nil text)

/-- In front of a newline behind a line, the return ends the line. -/
theorem withReturns_flatMap {ls : List (List Char)} (whole : ∀ line ∈ ls, '\n' ∉ line) :
    withReturns (ls.flatMap (· ++ ['\n'])) = (ls.map (· ++ ['\r'])).flatMap (· ++ ['\n']) := by
  induction ls with
  | nil => rfl
  | cons line rest ih =>
      obtain ⟨lineWhole, restWhole⟩ := List.forall_mem_cons.mp whole
      have ended : withReturns (line ++ ['\n']) = (line ++ ['\r']) ++ ['\n'] := by
        rw [withReturns_append, withReturns_of_whole lineWhole, List.append_assoc]
        rfl
      rw [List.flatMap_cons, withReturns_append, ended, ih restWhole, List.map_cons, List.flatMap_cons]

/-- The lines of a text with returns are those of the text, all but the last with a return. -/
theorem withReturns_unlines {above : List (List Char)} {last : List Char}
    (whole : ∀ line ∈ above ++ [last], '\n' ∉ line) :
    withReturns (unlines (above ++ [last])) = unlines (above.map (· ++ ['\r']) ++ [last]) := by
  obtain ⟨aboveWhole, lastWhole⟩ := List.forall_mem_append.mp whole
  rw [unlines_concat, unlines_concat, withReturns_append, withReturns_flatMap aboveWhole,
    withReturns_of_whole (lastWhole last List.mem_cons_self)]

/-- With a return behind every line, and so behind the last one, a text has one return more. -/
theorem unlines_map_return {ls : List (List Char)} (whole : ∀ line ∈ ls, '\n' ∉ line) :
    unlines (ls.map (· ++ ['\r'])) = withReturns (unlines ls) ++ if ls = [] then [] else ['\r'] := by
  rcases List.eq_nil_or_concat' ls with rfl | ⟨front, last, rfl⟩
  · rfl
  · rw [withReturns_unlines whole, if_neg (List.concat_ne_nil _ _), List.map_append, List.map_singleton,
      unlines_concat, unlines_concat, List.append_assoc]

theorem lines_withReturns {text : List Char} {above : List (List Char)} {last : List Char}
    (split : lines text = above ++ [last]) :
    lines (withReturns text) = above.map (· ++ ['\r']) ++ [last] := by
  have whole : ∀ line ∈ above ++ [last], '\n' ∉ line := fun line mem =>
    newline_notMem_of_mem_lines (split ▸ mem)
  rw [← unlines_lines text, split, withReturns_unlines whole]
  apply lines_unlines (List.concat_ne_nil _ _)
  intro line mem
  rcases List.mem_append.mp mem with returned | ends
  · obtain ⟨old, oldMem, rfl⟩ := List.mem_map.mp returned
    simpa using whole old (List.mem_append_left _ oldMem)
  · exact whole line (List.mem_append_right above ends)

end Text

namespace Resource

variable {unwanted : List String} {text : String}

/-- The text with a carriage return in front of every newline. -/
def crlf (text : String) : String :=
  String.ofList (Text.withReturns text.toList)

/-- A line says what it says without a return at its end. -/
theorem readLine_append_return (line : List Char) : readLine (line ++ ['\r']) = readLine line :=
  readLine_congr (Text.trim_append_blank (List.forall_mem_singleton.mpr rfl) line)

theorem keeps_comp_return (unwanted : List String) : keeps unwanted ∘ (· ++ ['\r']) = keeps unwanted := by
  funext line
  rw [Function.comp_apply, keeps, keeps, readLine_append_return]

/-- The lines of a text with returns that stay are those of the text, all but its last line with a
return. -/
theorem remaining_crlf {above : List (List Char)} {last : List Char}
    (split : Text.lines text.toList = above ++ [last]) :
    remaining unwanted (crlf text) =
      (above.filter (keeps unwanted)).map (· ++ ['\r']) ++ [last].filter (keeps unwanted) := by
  rw [remaining, crlf, String.toList_ofList, Text.lines_withReturns split, List.filter_append,
    List.filter_map, keeps_comp_return]

/-- Whether removal takes the last line of a text away and leaves another one. -/
def cutsEnd (unwanted : List String) (text : String) : Bool :=
  (Text.lines text.toList).getLast?.any (!keeps unwanted ·) && !(remaining unwanted text).isEmpty

/-- A text with a newline at its end keeps its last line, which is empty. -/
theorem cutsEnd_append_newline (unwanted : List String) (text : String) :
    cutsEnd unwanted (text ++ "\n") = false := by
  simp [cutsEnd, Text.lines_append_newline]

/-- The lines that stay of a text with returns make up what is left of the text, with returns, and one
more return if the end is cut. -/
theorem unlines_remaining_crlf (unwanted : List String) (text : String) :
    Text.unlines (remaining unwanted (crlf text)) =
      Text.withReturns (Text.unlines (remaining unwanted text)) ++
        if cutsEnd unwanted text then ['\r'] else [] := by
  obtain ⟨above, last, split⟩ := Text.exists_lines text.toList
  have remainingEq : remaining unwanted text =
      above.filter (keeps unwanted) ++ [last].filter (keeps unwanted) := by
    rw [remaining, split, List.filter_append]
  have whole : ∀ line ∈ remaining unwanted text, '\n' ∉ line := fun line mem =>
    Text.newline_notMem_of_mem_lines (List.mem_filter.mp mem).1
  rw [remaining_crlf split]
  cases lastKept : keeps unwanted last with
  | true =>
      have uncut : cutsEnd unwanted text = false := by
        simp [cutsEnd, split, lastKept]
      rw [List.filter_cons_of_pos lastKept, List.filter_nil] at remainingEq ⊢
      rw [remainingEq] at whole ⊢
      rw [Text.withReturns_unlines whole, uncut, if_neg Bool.false_ne_true, List.append_nil]
  | false =>
      -- The last line that stays is no longer in front of a newline, and has its return still.
      have cut : cutsEnd unwanted text = true ↔ remaining unwanted text ≠ [] := by
        simp [cutsEnd, split, lastKept]
      rw [List.filter_cons_of_neg (by simp [lastKept]), List.filter_nil, List.append_nil] at remainingEq ⊢
      rw [← remainingEq, Text.unlines_map_return whole]
      by_cases none : remaining unwanted text = [] <;> simp [cut, none]

theorem removing_crlf_eq (unwanted : List String) (text : String) :
    removing unwanted (crlf text) =
      crlf (removing unwanted text) ++ (if cutsEnd unwanted text then "\r" else "") := by
  calc
    removing unwanted (crlf text) = String.ofList (Text.unlines (remaining unwanted (crlf text))) := rfl
    _ = crlf (removing unwanted text) ++
          String.ofList (if cutsEnd unwanted text then ['\r'] else []) := by
        rw [unlines_remaining_crlf, String.ofList_append, crlf, removing, String.toList_ofList, remaining]
    _ = crlf (removing unwanted text) ++ (if cutsEnd unwanted text then "\r" else "") := by
        cases cutsEnd unwanted text <;> rfl

/-- Removal keeps carriage returns: what is left of a text with returns is what is left of the text, with
returns, and a return at the end exactly if the last line goes and another one stays.  That never happens
to a text that ends with a newline. -/
theorem removing_crlf (unwanted : List String) (text : String) :
    removing unwanted (crlf text) =
        crlf (removing unwanted text) ++ (if cutsEnd unwanted text then "\r" else "") ∧
      (removing unwanted (crlf text) = crlf (removing unwanted text) ↔ cutsEnd unwanted text = false) ∧
      removing unwanted (crlf (text ++ "\n")) = crlf (removing unwanted (text ++ "\n")) := by
  refine ⟨removing_crlf_eq unwanted text, ?_, ?_⟩
  · rw [removing_crlf_eq]
    cases cutsEnd unwanted text <;> simp
  · rw [removing_crlf_eq, cutsEnd_append_newline]
    simp

/-- Two identifier lines with no newline at the end. -/
def openText : String :=
  "\"a\" = \"1\";\n\"b\" = \"2\";"

/-- The return of the first line of `openText` stays when the second line goes. -/
theorem removing_crlf_ne_openText :
    '\r' ∉ openText.toList ∧ removing ["b"] (crlf openText) ≠ crlf (removing ["b"] openText) := by
  decide +kernel

end Resource

end StringAudit
