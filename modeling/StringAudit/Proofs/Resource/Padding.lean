import Mathlib.Data.List.Forall2
import Mathlib.Data.List.TakeWhile
import StringAudit.Proofs.Resource.Removal

/-!
# Blanks around lines

A line is read without the blanks at its ends, so that it says the same whatever blanks are put in front of
it or behind it, a carriage return among them.  Reading a text and removing identifiers from it look at what
its lines say and at nothing else.  So texts whose lines differ in the blanks at their ends only are read
alike, with the same identifiers or the same failure at the same line, and lose the same lines.
-/

namespace StringAudit

namespace Text

variable {line padded : List Char}

/-- A line with blanks put in front of it and behind it. -/
def Pads (line padded : List Char) : Prop :=
  ∃ front back, padded = front ++ line ++ back ∧ (∀ c ∈ front, isBlank c = true) ∧
    ∀ c ∈ back, isBlank c = true

theorem pads_between {first last : Char} (firstBlank : isBlank first = true)
    (lastBlank : isBlank last = true) : Pads line ([first] ++ line ++ [last]) :=
  ⟨[first], [last], rfl, List.forall_mem_singleton.mpr firstBlank, List.forall_mem_singleton.mpr lastBlank⟩

theorem trim_append_of_blank {front : List Char} (blank : ∀ c ∈ front, isBlank c = true)
    (line : List Char) : trim (front ++ line) = trim line := by
  rw [trim, trimStart, List.dropWhile_append_of_pos blank, trim, trimStart]

theorem trimEnd_append_blank {back : List Char} (blank : ∀ c ∈ back, isBlank c = true)
    (line : List Char) : trimEnd (line ++ back) = trimEnd line := by
  have blankReversed : ∀ c ∈ back.reverse, isBlank c = true := fun c mem => blank c (List.mem_reverse.mp mem)
  rw [trimEnd, List.reverse_append, List.dropWhile_append_of_pos blankReversed, trimEnd]

theorem trim_append_blank {back : List Char} (blank : ∀ c ∈ back, isBlank c = true)
    (line : List Char) : trim (line ++ back) = trim line := by
  rw [trim, trimStart, List.dropWhile_append]
  split
  · rename_i nothing
    -- All of the line is blank, so that what was put behind it is dropped at the start.
    rw [List.dropWhile_eq_nil_iff.mpr blank, trim, trimStart, List.isEmpty_iff.mp nothing]
  · rw [trimEnd_append_blank blank, trim, trimStart]

/-- Blanks at the ends of a line do not count. -/
theorem Pads.trim_eq (pads : Pads line padded) : trim padded = trim line := by
  obtain ⟨front, back, rfl, frontBlank, backBlank⟩ := pads
  rw [trim_append_blank backBlank, trim_append_of_blank frontBlank]

end Text

namespace Resource

variable {line other : List Char} {ls others : List (List Char)} {text padded : String}

/-- A line says what it says without the blanks at its ends. -/
theorem readLine_congr (same : Text.trim other = Text.trim line) : readLine other = readLine line := by
  rw [readLine, readLine, isIdentifierLine, isIdentifierLine, same]

/-- Reading lines looks at what they say. -/
theorem identifiersFrom_congr
    (same : List.Forall₂ (fun line other => readLine other = readLine line) ls others) (number : Nat) :
    identifiersFrom number others = identifiersFrom number ls := by
  induction same generalizing number with
  | nil => rfl
  | cons first _ ih =>
      rw [identifiersFrom, identifiersFrom, first]
      simp only [ih]

/-! ## The positions of removed lines -/

/-- The positions of the lines that removal takes away, counted from zero. -/
def struckLines (unwanted : List String) (text : String) : List Nat :=
  (Text.lines text.toList).findIdxs fun line => !keeps unwanted line

/-- The text without the lines at some positions. -/
def withoutLines (positions : List Nat) (text : String) : String :=
  String.ofList (Text.unlines
    (((Text.lines text.toList).zipIdx.filter fun item => item.2 ∉ positions).map Prod.fst))

/-- Removal takes lines away by their positions. -/
theorem removing_eq_withoutLines (unwanted : List String) (text : String) :
    removing unwanted text = withoutLines (struckLines unwanted text) text := by
  have kept : ((Text.lines text.toList).zipIdx.filter fun item => item.2 ∉ struckLines unwanted text) =
      (Text.lines text.toList).zipIdx.filter (keeps unwanted ∘ Prod.fst) := by
    refine List.filter_congr ?_
    rintro ⟨line, k⟩ mem
    obtain ⟨bound, lineEq⟩ := List.mem_zipIdx' mem
    simp [struckLines, List.mem_findIdxs_iff_pos_getElem bound, lineEq]
  rw [withoutLines, kept, ← List.filter_map, List.zipIdx_map_fst, removing]

/-- The positions depend on what the lines say. -/
theorem struckLines_congr (unwanted : List String)
    (same : List.Forall₂ (fun line other => readLine other = readLine line) (Text.lines text.toList)
      (Text.lines padded.toList)) :
    struckLines unwanted padded = struckLines unwanted text := by
  have kept : (Text.lines text.toList).map (keeps unwanted) =
      (Text.lines padded.toList).map (keeps unwanted) := by
    rw [← List.forall₂_eq_eq_eq, List.forall₂_map_left_iff, List.forall₂_map_right_iff]
    refine same.imp fun line other saysSame => ?_
    rw [keeps, keeps, saysSame]
  have positions : ∀ ls : List (List Char),
      (ls.findIdxs fun line => !keeps unwanted line) = (ls.map (keeps unwanted)).findIdxs (!·) := by
    intro ls
    rw [List.findIdxs_map]
    rfl
  rw [struckLines, struckLines, positions, positions, kept]

/-- Blanks around lines do not matter.  A text whose lines are those of another one with blanks put at their
ends has the same identifiers, or is unusable from the same line on, and whatever identifiers are removed
from both, the lines that go are at the same positions. -/
theorem padding_immaterial
    (pads : List.Forall₂ Text.Pads (Text.lines text.toList) (Text.lines padded.toList)) :
    identifiers padded = identifiers text ∧
      ∀ unwanted, struckLines unwanted padded = struckLines unwanted text ∧
        removing unwanted text = withoutLines (struckLines unwanted text) text ∧
        removing unwanted padded = withoutLines (struckLines unwanted text) padded := by
  have same : List.Forall₂ (fun line other => readLine other = readLine line) (Text.lines text.toList)
      (Text.lines padded.toList) :=
    pads.imp fun _ _ padding => readLine_congr padding.trim_eq
  refine ⟨identifiersFrom_congr same 1, fun unwanted => ?_⟩
  have positions := struckLines_congr unwanted same
  exact ⟨positions, removing_eq_withoutLines unwanted text,
    positions ▸ removing_eq_withoutLines unwanted padded⟩

/-- An identifier line, an empty line, and a line that is unclosed. -/
def bareText : String :=
  "\"a\" = \"1\";\n\n\"b"

/-- The lines of `bareText` behind a tab, a blank and an ideographic space, two of them with a carriage
return. -/
def paddedText : String :=
  "\t\"a\" = \"1\";\r\n \r\n\u3000\"b\u0085"

/-- Both texts are unclosed in the third line, and both lose the first one. -/
theorem padding_immaterial_paddedText :
    List.Forall₂ Text.Pads (Text.lines bareText.toList) (Text.lines paddedText.toList) ∧
      identifiers bareText = .error ⟨"\"b", 3⟩ ∧ identifiers paddedText = .error ⟨"\"b", 3⟩ ∧
      struckLines ["a"] bareText = [0] ∧ struckLines ["a"] paddedText = [0] ∧
      removing ["a"] paddedText = " \r\n\u3000\"b\u0085" := by
  have bareLines : Text.lines bareText.toList = ["\"a\" = \"1\";".toList, [], "\"b".toList] := by
    decide +kernel
  have paddedLines : Text.lines paddedText.toList =
      ["\t\"a\" = \"1\";\r".toList, " \r".toList, "\u3000\"b\u0085".toList] := by
    decide +kernel
  have pads : List.Forall₂ Text.Pads (Text.lines bareText.toList) (Text.lines paddedText.toList) := by
    rw [bareLines, paddedLines]
    refine .cons (Text.pads_between ?_ ?_) (.cons (Text.pads_between ?_ ?_)
      (.cons (Text.pads_between ?_ ?_) .nil))
    all_goals decide +kernel
  have failed : identifiers bareText = .error ⟨"\"b", 3⟩ := by decide +kernel
  have struck : struckLines ["a"] bareText = [0] := by decide +kernel
  obtain ⟨sameIdentifiers, sameRemoval⟩ := padding_immaterial pads
  obtain ⟨sameLines, -, removed⟩ := sameRemoval ["a"]
  refine ⟨pads, failed, sameIdentifiers.trans failed, struck, sameLines.trans struck, removed.trans ?_⟩
  decide +kernel

end Resource

end StringAudit
