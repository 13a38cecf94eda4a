import StringAudit.Disk.Basic
import StringAudit.Text.Lines

/-!
# The steps of a path

A path that has been parsed has proper names only: none is empty, none is `.`, and none holds a
slash.  Following the text of such a path takes its names as steps, one by one, and a path joined
with a name takes that name as one more step.
-/

namespace StringAudit

namespace Path

/-! ## Pieces -/

theorem slash_notMem_of_mem_pieces {piece text : String} (mem : piece ∈ pieces text) :
    '/' ∉ piece.toList := by
  obtain ⟨part, partMem, rfl⟩ := List.mem_map.mp mem
  rw [String.toList_ofList]
  exact Text.notMem_of_mem_splitOn partMem

/-- Cutting at a slash. -/
theorem pieces_append_slash (base rest : String) :
    pieces (base ++ "/" ++ rest) = pieces base ++ pieces rest := by
  have whole : (base ++ "/" ++ rest).toList = base.toList ++ '/' :: rest.toList := by simp
  rw [pieces, whole, List.splitOn_append_cons_self, List.map_append, pieces, pieces]

theorem pieces_eq_singleton {name : String} (single : '/' ∉ name.toList) : pieces name = [name] := by
  rw [pieces, List.splitOn_eq_singleton single, List.map_singleton, String.ofList_toList]

theorem pieces_intercalate {names : List String} (nonempty : names ≠ [])
    (single : ∀ name ∈ names, '/' ∉ name.toList) : pieces ("/".intercalate names) = names := by
  induction names with
  | nil => exact absurd rfl nonempty
  | cons name rest ih =>
      have first := single name List.mem_cons_self
      by_cases last : rest = []
      · subst last
        rw [String.intercalate_singleton, pieces_eq_singleton first]
      · rw [String.intercalate_cons_of_ne_nil last, pieces_append_slash, pieces_eq_singleton first,
          ih last fun other mem => single other (List.mem_cons_of_mem name mem)]
        rfl

/-! ## Proper paths -/

/-- A path with proper names under one of the three anchors. -/
structure Proper (p : Path) : Prop where
  anchor : p.anchor = "" ∨ p.anchor = "/" ∨ p.anchor = "//"
  named : ∀ name ∈ p.names, isName name = true
  single : ∀ name ∈ p.names, '/' ∉ name.toList

theorem parse_proper (text : String) : (parse text).Proper where
  anchor := by
    rw [parse, anchorOf]
    split <;> simp
  named := fun _ mem => (List.mem_filter.mp mem).2
  single := fun _ mem => slash_notMem_of_mem_pieces (List.mem_filter.mp mem).1

theorem Proper.ne_empty {p : Path} (proper : p.Proper) {name : String} (mem : name ∈ p.names) :
    name ≠ "" := by
  have named := proper.named name mem
  rw [isName, Bool.and_eq_true, decide_eq_true_iff] at named
  exact named.1

theorem Proper.parent {p : Path} (proper : p.Proper) : p.parent.Proper where
  anchor := proper.anchor
  named := fun name mem => proper.named name (List.dropLast_subset _ mem)
  single := fun name mem => proper.single name (List.dropLast_subset _ mem)

theorem Proper.text_ne_empty {p : Path} (proper : p.Proper) : p.text ≠ "" := by
  rw [text]
  split
  · decide
  · rename_i something
    intro empty
    rw [String.append_eq_empty_iff] at empty
    cases namesEq : p.names with
    | nil => exact something ⟨empty.1, namesEq⟩
    | cons name rest =>
        have nonempty := proper.ne_empty (namesEq ▸ List.mem_cons_self)
        rw [namesEq] at empty
        cases rest <;> simp_all

end Path

namespace Disk

open StringAudit.Path

/-- Without a slash at its end, a text takes its pieces as steps, except for empty ones. -/
theorem steps_of_last_ne {text : String} (last : (pieces text).getLast? ≠ some "") :
    steps text = (pieces text).filter (· ≠ "") := by
  rw [steps]
  simp only [if_neg last]

/-- A slash at its end asks for one more step. -/
theorem steps_of_last {text : String} {front : List String} (piecesEq : pieces text = front ++ [""]) :
    steps text = front.filter (· ≠ "") ++ ["."] := by
  have last : (pieces text).getLast? = some "" := by rw [piecesEq, List.getLast?_concat]
  rw [steps]
  simp only [if_pos last]
  rw [piecesEq, List.dropLast_concat, List.filter_append]
  rfl

/-- A text that ends in a name takes the name as its last step. -/
theorem steps_of_name {text name : String} {front : List String} (named : name ≠ "")
    (piecesEq : pieces text = front ++ [name]) : steps text = front.filter (· ≠ "") ++ [name] := by
  rw [steps_of_last_ne, piecesEq, List.filter_append]
  · simp [named]
  · rw [piecesEq, List.getLast?_concat]
    simpa using named

/-- The steps of the text of a path are its names. -/
theorem steps_text {p : Path} (proper : p.Proper) :
    steps p.text = if p.names = [] then ["."] else p.names := by
  by_cases none : p.names = []
  · rw [if_pos none, text, none]
    rcases proper.anchor with anchor | anchor | anchor <;> rw [anchor] <;> decide +kernel
  · rw [if_neg none]
    obtain ⟨front, piecesEq, empty⟩ : ∃ front, pieces p.text = front ++ p.names ∧
        front.filter (· ≠ "") = [] := by
      have cut : ∀ text, pieces ("/" ++ text) = "" :: pieces text := pieces_append_slash ""
      have inner := pieces_intercalate none proper.single
      rw [text, if_neg fun both => none both.2]
      rcases proper.anchor with anchor | anchor | anchor
      · exact ⟨[], by rw [anchor, String.empty_append, inner, List.nil_append], by simp⟩
      · exact ⟨[""], by rw [anchor, cut, inner, List.singleton_append], by simp⟩
      · refine ⟨["", ""], ?_, by simp⟩
        rw [anchor, show "//" = "/" ++ "/" from rfl, String.append_assoc, cut, cut, inner]
        rfl
    have named : p.names.filter (· ≠ "") = p.names := by
      rw [List.filter_eq_self]
      exact fun name mem => decide_eq_true (proper.ne_empty mem)
    rw [steps_of_last_ne, piecesEq, List.filter_append, empty, named, List.nil_append]
    rw [piecesEq, List.getLast?_append, List.getLast?_eq_some_getLast none, Option.some_or, ne_eq,
      Option.some.injEq]
    exact proper.ne_empty (List.getLast_mem none)

/-- Only an anchor starts with a slash. -/
theorem start_text {p : Path} (proper : p.Proper) (here : Place) :
    start here p.text = if p.anchor = "" then here else [] := by
  have slash : p.text.startsWith "/" = true ↔ p.anchor ≠ "" := by
    rw [String.startsWith_string_iff, text]
    rcases proper.anchor with anchor | anchor | anchor
    · cases namesEq : p.names with
      | nil => simp [anchor]
      | cons name rest =>
          have single := proper.single name (namesEq ▸ List.mem_cons_self)
          have nonempty : name.toList ≠ [] := by
            rw [ne_eq, String.toList_eq_nil_iff]
            exact proper.ne_empty (namesEq ▸ List.mem_cons_self)
          obtain ⟨c, cs, nameEq⟩ := List.exists_cons_of_ne_nil nonempty
          have different : '/' ≠ c := by
            rintro rfl
            exact single (nameEq ▸ List.mem_cons_self)
          cases rest <;> simp [anchor, nameEq, different]
    · simp [anchor]
    · simp [anchor]
  rw [start]
  by_cases relative : p.anchor = ""
  · rw [if_neg (by rw [slash]; exact fun absolute => absolute relative), if_pos relative]
  · rw [if_pos (slash.mpr relative), if_neg relative]

/-! ## Joining a path with a name -/

/-- A name that can be joined to a path as one more step. -/
structure IsJoinable (name : String) : Prop where
  nonempty : name ≠ ""
  single : '/' ∉ name.toList

theorem IsJoinable.exists_cons {name : String} (joinable : IsJoinable name) :
    ∃ c cs, name.toList = c :: cs ∧ c ≠ '/' := by
  obtain ⟨c, cs, nameEq⟩ := List.exists_cons_of_ne_nil
    fun empty => joinable.nonempty (String.toList_eq_nil_iff.mp empty)
  refine ⟨c, cs, nameEq, ?_⟩
  rintro rfl
  exact joinable.single (nameEq ▸ List.mem_cons_self)

theorem not_startsWith_slash {name : String} (joinable : IsJoinable name) :
    name.startsWith "/" = false := by
  rw [Bool.eq_false_iff, ne_eq, String.startsWith_string_iff]
  exact fun slash => joinable.single (slash.subset List.mem_cons_self)

theorem intercalate_pieces (text : String) : "/".intercalate (pieces text) = text := by
  rw [← String.toList_inj, String.toList_intercalate, pieces, List.map_map]
  have whole : (String.toList ∘ String.ofList : List Char → List Char) = id := by
    funext chars
    exact String.toList_ofList
  rw [whole, List.map_id]
  exact List.intercalate_splitOn '/'

theorem endsWith_slash_iff {text : String} :
    text.endsWith "/" = true ↔ ∃ front, text = front ++ "/" := by
  rw [String.endsWith_eq_endsWith_toSlice, String.Slice.endsWith_string_iff, String.copy_toSlice]
  constructor
  · rintro ⟨front, whole⟩
    exact ⟨String.ofList front, by rw [← String.toList_inj, ← whole]; simp⟩
  · rintro ⟨front, rfl⟩
    exact ⟨front.toList, by simp⟩

/-- Only a slash at the end, or nothing at all, leaves an empty last piece. -/
theorem endsWith_of_getLast?_pieces {text : String} (nonempty : text ≠ "")
    (last : (pieces text).getLast? = some "") : text.endsWith "/" = true := by
  obtain ⟨front, piecesEq⟩ := List.getLast?_eq_some_iff.mp last
  have whole := intercalate_pieces text
  rw [piecesEq] at whole
  by_cases alone : front = []
  · rw [alone] at whole
    exact absurd whole.symm nonempty
  · rw [String.intercalate_append_of_ne_nil alone (List.cons_ne_nil _ _)] at whole
    rw [endsWith_slash_iff]
    exact ⟨"/".intercalate front, by rw [← whole, String.intercalate_singleton, String.append_empty]⟩

/-- A path joined with a name has its pieces, without an empty one at the end, and then the name. -/
theorem pieces_join {base name : String} (nonempty : base ≠ "") (joinable : IsJoinable name) :
    ∃ front, pieces (join base name) = front ++ [name] ∧
      ((pieces base = front ∧ (pieces base).getLast? ≠ some "") ∨ pieces base = front ++ [""]) := by
  have namePieces := pieces_eq_singleton joinable.single
  by_cases slash : base.endsWith "/" = true
  · obtain ⟨above, rfl⟩ := endsWith_slash_iff.mp slash
    have joined : join (above ++ "/") name = above ++ "/" ++ name := by
      simp [join, not_startsWith_slash joinable, slash]
    have basePieces : pieces (above ++ "/") = pieces above ++ [""] := by
      have cut := pieces_append_slash above ""
      rwa [String.append_empty] at cut
    exact ⟨pieces above, by rw [joined, pieces_append_slash, namePieces], Or.inr basePieces⟩
  · have joined : join base name = base ++ "/" ++ name := by
      simp [join, not_startsWith_slash joinable, slash, nonempty]
    exact ⟨pieces base, by rw [joined, pieces_append_slash, namePieces],
      Or.inl ⟨rfl, fun last => slash (endsWith_of_getLast?_pieces nonempty last)⟩⟩

/-- A path joined with a name takes its steps, without a `.` at the end, and then the name. -/
theorem steps_join {base name : String} (nonempty : base ≠ "") (joinable : IsJoinable name) :
    ∃ front, steps (join base name) = front ++ [name] ∧
      (steps base = front ∨ steps base = front ++ ["."]) := by
  obtain ⟨front, joined, ⟨rfl, last⟩ | baseEq⟩ := pieces_join nonempty joinable
  · exact ⟨_, steps_of_name joinable.nonempty joined, Or.inl (steps_of_last_ne last)⟩
  · exact ⟨_, steps_of_name joinable.nonempty joined, Or.inr (steps_of_last baseEq)⟩

/-- A joined path goes on from the path. -/
theorem toList_join (base : String) {name : String} (joinable : IsJoinable name) :
    ∃ tail, (join base name).toList = base.toList ++ tail := by
  rw [join, not_startsWith_slash joinable]
  simp only [Bool.false_eq_true, if_false]
  split
  · exact ⟨name.toList, String.toList_append⟩
  · exact ⟨'/' :: name.toList, by simp⟩

theorem join_ne_empty {base name : String} (nonempty : base ≠ "") (joinable : IsJoinable name) :
    join base name ≠ "" := by
  obtain ⟨tail, joinEq⟩ := toList_join base joinable
  rw [ne_eq, ← String.toList_eq_nil_iff, joinEq, List.append_eq_nil_iff, String.toList_eq_nil_iff]
  exact fun both => nonempty both.1

theorem start_join {base name : String} (nonempty : base ≠ "") (joinable : IsJoinable name)
    (here : Place) : start here (join base name) = start here base := by
  obtain ⟨c, cs, baseEq⟩ : ∃ c cs, base.toList = c :: cs := by
    apply List.exists_cons_of_ne_nil
    rwa [ne_eq, String.toList_eq_nil_iff]
  obtain ⟨tail, joinEq⟩ := toList_join base joinable
  have same : (join base name).startsWith "/" = base.startsWith "/" := by
    rw [Bool.eq_iff_iff, String.startsWith_string_iff, String.startsWith_string_iff, joinEq, baseEq]
    simp
  rw [start, start, same]

end Disk

end StringAudit
