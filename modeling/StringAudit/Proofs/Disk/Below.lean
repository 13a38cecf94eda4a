import StringAudit.Proofs.Disk.Order
import StringAudit.Proofs.Disk.Target

/-!
# Paths below a directory

A path goes on from another one along a chain of names.  Its text is the other path with the names behind
it, one slash between two of them, whatever the spelling of the other path is.  It leads down from the
directory that the other path leads to, through no link but those of the other path.
-/

namespace StringAudit

namespace Path

open Disk (IsJoinable not_startsWith_slash endsWith_slash_iff pieces_join join_ne_empty)

variable {base name : String} {chain : Place}

/-- The path that goes on from another one along a chain of names. -/
def below (base : String) (chain : Place) : String :=
  chain.foldl join base

@[simp]
theorem below_nil (base : String) : below base [] = base :=
  rfl

@[simp]
theorem below_cons (base name : String) (chain : Place) :
    below base (name :: chain) = below (join base name) chain :=
  rfl

theorem below_concat (base : String) (chain : Place) (name : String) :
    below base (chain ++ [name]) = join (below base chain) name := by
  rw [below, List.foldl_append]
  rfl

/-! ## The text of a path below another one -/

theorem endsWith_slash_iff_getLast? {text : String} :
    text.endsWith "/" = true ↔ text.toList.getLast? = some '/' := by
  rw [endsWith_slash_iff, List.getLast?_eq_some_iff]
  constructor
  · rintro ⟨front, rfl⟩
    exact ⟨front.toList, String.toList_append⟩
  · rintro ⟨front, whole⟩
    exact ⟨String.ofList front, by rw [← String.toList_inj, whole]; simp⟩

/-- What starts with a name does not start with a slash. -/
theorem not_startsWith_append (joinable : IsJoinable name) (rest : String) :
    (name ++ rest).startsWith "/" = false := by
  obtain ⟨c, cs, nameEq, different⟩ := joinable.exists_cons
  rw [Bool.eq_false_iff, ne_eq, String.startsWith_string_iff]
  simp [nameEq, different.symm]

/-- A relative text is joined behind the same text every time. -/
theorem exists_front (base : String) :
    ∃ front, ∀ rest : String, rest.startsWith "/" = false → join base rest = front ++ rest := by
  by_cases apart : base = "" ∨ base.endsWith "/" = true
  · exact ⟨base, fun rest relative => by rw [join, relative, if_neg Bool.false_ne_true, if_pos apart]⟩
  · exact ⟨base ++ "/", fun rest relative => by
      rw [join, relative, if_neg Bool.false_ne_true, if_neg apart]⟩

theorem not_endsWith_join (joinable : IsJoinable name) (base : String) :
    (join base name).endsWith "/" = false := by
  obtain ⟨front, joined⟩ := exists_front base
  have nonempty : name.toList ≠ [] := by
    rw [ne_eq, String.toList_eq_nil_iff]
    exact joinable.nonempty
  rw [Bool.eq_false_iff, ne_eq, endsWith_slash_iff_getLast?,
    joined name (not_startsWith_slash joinable), String.toList_append, List.getLast?_append,
    List.getLast?_eq_some_getLast nonempty, Option.some_or, Option.some.injEq]
  exact fun same => joinable.single (same ▸ List.getLast_mem nonempty)

theorem le_utf8ByteSize_join (joinable : IsJoinable name) (base : String) :
    base.utf8ByteSize + name.utf8ByteSize ≤ (join base name).utf8ByteSize := by
  rw [join, not_startsWith_slash joinable, if_neg Bool.false_ne_true]
  split
  · exact Nat.le_of_eq String.utf8ByteSize_append.symm
  · rw [String.utf8ByteSize_append, String.utf8ByteSize_append]
    omega

/-- What is joined to a name goes on behind a slash. -/
theorem join_join (nonempty : base ≠ "") (joinable : IsJoinable name) {rest : String}
    (relative : rest.startsWith "/" = false) :
    join (join base name) rest = join base (name ++ "/" ++ rest) := by
  obtain ⟨front, joined⟩ := exists_front base
  have apart : ¬ (join base name = "" ∨ (join base name).endsWith "/" = true) := by
    rw [not_endsWith_join joinable]
    simp [join_ne_empty nonempty joinable]
  rw [join.eq_1 (join base name), relative, if_neg Bool.false_ne_true, if_neg apart,
    joined name (not_startsWith_slash joinable)]
  simp only [String.append_assoc, joined _ (not_startsWith_append joinable _)]

/-- Going on along a chain of names is going on by the text of the chain. -/
theorem below_eq_join (nonempty : base ≠ "") (joinable : ∀ name ∈ chain, IsJoinable name)
    (some : chain ≠ []) : below base chain = join base ("/".intercalate chain) := by
  induction chain generalizing base with
  | nil => exact absurd rfl some
  | cons name rest ih =>
      obtain ⟨first, others⟩ := List.forall_mem_cons.mp joinable
      cases rest with
      | nil => rw [below_cons, below_nil, String.intercalate_singleton]
      | cons next rest =>
          have relative : ("/".intercalate (next :: rest)).startsWith "/" = false := by
            have second := others next List.mem_cons_self
            cases rest with
            | nil =>
                rw [String.intercalate_singleton]
                exact not_startsWith_slash second
            | cons _ _ =>
                rw [String.intercalate_cons_of_ne_nil (List.cons_ne_nil _ _), String.append_assoc]
                exact not_startsWith_append second _
          rw [below_cons, ih (join_ne_empty nonempty first) others (List.cons_ne_nil _ _),
            String.intercalate_cons_of_ne_nil (List.cons_ne_nil _ _), join_join nonempty first relative]

/-! ## The names of a path below another one -/

/-- Text behind another one does not change how many slashes that starts with, unless the other one is
nothing but slashes and the text goes on with one. -/
theorem takeWhile_slash_append {front rest : List Char}
    (apart : rest.head? ≠ some '/' ∨ ∃ c ∈ front, c ≠ '/') :
    (front ++ rest).takeWhile (· = '/') = front.takeWhile (· = '/') := by
  induction front with
  | nil =>
      rcases apart with head | ⟨c, mem, -⟩
      · cases rest with
        | nil => rfl
        | cons c cs => exact List.takeWhile_cons_of_neg (by simpa using head)
      · exact absurd mem List.not_mem_nil
  | cons c cs ih =>
      rw [List.cons_append, List.takeWhile_cons, List.takeWhile_cons]
      split
      · rename_i slash
        rw [ih (apart.imp_right ?_)]
        rintro ⟨other, mem, different⟩
        rcases List.mem_cons.mp mem with rfl | later
        · exact absurd (of_decide_eq_true slash) different
        · exact ⟨other, later, different⟩
      · rfl

theorem anchorOf_join (nonempty : base ≠ "") (joinable : IsJoinable name) :
    anchorOf (join base name) = anchorOf base := by
  have slashes : (join base name).toList.takeWhile (· = '/') = base.toList.takeWhile (· = '/') := by
    rw [join, not_startsWith_slash joinable, if_neg Bool.false_ne_true]
    by_cases ends : base.endsWith "/" = true
    · obtain ⟨c, cs, nameEq, different⟩ := joinable.exists_cons
      rw [if_pos (Or.inr ends), String.toList_append, takeWhile_slash_append]
      exact Or.inl (by simpa [nameEq] using different)
    · have some : base.toList ≠ [] := fun empty => nonempty (String.toList_eq_nil_iff.mp empty)
      have last : base.toList.getLast some ≠ '/' := by
        rw [endsWith_slash_iff_getLast?, List.getLast?_eq_some_getLast some] at ends
        simpa using ends
      rw [if_neg (by simp [nonempty, ends]), String.append_assoc, String.toList_append,
        takeWhile_slash_append (Or.inr ⟨_, List.getLast_mem some, last⟩)]
  rw [anchorOf, slashes, anchorOf]

/-- A path joined with a name has the same anchor, and one more name. -/
theorem parse_join (nonempty : base ≠ "") (joinable : IsJoinable name) (named : isName name = true) :
    parse (join base name) = { parse base with names := (parse base).names ++ [name] } := by
  have names : (pieces (join base name)).filter isName = (pieces base).filter isName ++ [name] := by
    obtain ⟨front, joined, ⟨baseEq, -⟩ | baseEq⟩ := pieces_join nonempty joinable
    · rw [joined, baseEq, List.filter_append, List.filter_cons_of_pos named, List.filter_nil]
    · rw [joined, baseEq, List.filter_append, List.filter_append, List.filter_cons_of_pos named]
      simp [isName]
  rw [parse, parse, anchorOf_join nonempty joinable, names]

/-- Names that go down are kept when a path is collapsed. -/
theorem foldl_collapseName (anchored : Bool) (above : List String) (down : ".." ∉ chain) :
    chain.foldl (collapseName anchored) above = chain.reverse ++ above := by
  induction chain generalizing above with
  | nil => rfl
  | cons name rest ih =>
      rw [List.mem_cons, not_or] at down
      rw [List.foldl_cons, collapseName.eq_def, if_pos (Ne.symm down.1), ih (name :: above) down.2,
        List.reverse_cons, List.append_assoc, List.singleton_append]

theorem collapse_append (p : Path) (down : ".." ∉ chain) :
    collapse { p with names := p.names ++ chain } =
      { collapse p with names := (collapse p).names ++ chain } := by
  rw [collapse, List.foldl_append, foldl_collapseName _ _ down, List.reverse_append,
    List.reverse_reverse, collapse]

end Path

namespace Directory

variable {name : String} {chain : Place} {d : Directory}

/-- A name as it stands in a directory. -/
theorem IsEntryName.isJoinable (named : IsEntryName name) : Disk.IsJoinable name :=
  ⟨named.1, named.2.1⟩

theorem IsEntryName.isName (named : IsEntryName name) : Path.isName name = true := by
  rw [Path.isName, Bool.and_eq_true, decide_eq_true_iff, decide_eq_true_iff]
  exact ⟨named.1, named.2.2.1⟩

theorem up_notMem (named : ∀ name ∈ chain, IsEntryName name) : ".." ∉ chain :=
  fun mem => (named _ mem).2.2.2.1 rfl

/-- A path below another one has the same anchor, and the names of the chain behind those of the other. -/
theorem parse_below {base : String} (nonempty : base ≠ "") (named : ∀ name ∈ chain, IsEntryName name) :
    Path.parse (Path.below base chain) =
      { Path.parse base with names := (Path.parse base).names ++ chain } := by
  induction chain generalizing base with
  | nil => simp
  | cons name rest ih =>
      obtain ⟨first, others⟩ := List.forall_mem_cons.mp named
      rw [Path.below_cons, ih (Disk.join_ne_empty nonempty first.isJoinable) others,
        Path.parse_join nonempty first.isJoinable first.isName, List.append_assoc, List.singleton_append]

/-- What holds of every name holds of the names in a directory. -/
theorem holds_of_mem {q : String → Prop} {entry : Entry} (every : d.Every fun name _ => q name)
    (mem : (name, entry) ∈ d.toList) : q name := by
  induction d using consInduction with
  | empty => exact absurd mem List.not_mem_nil
  | cons first firstEntry rest _ ih =>
      obtain ⟨holds, -, restEvery⟩ := every_cons.mp every
      rw [toList_cons] at mem
      rcases List.mem_cons.mp mem with same | later
      · cases same
        exact holds
      · exact ih restEvery later

/-- What holds of every name holds of the names that lead to an entry. -/
theorem holds_of_at? {q : String → Prop} {entry : Entry} (every : d.Every fun name _ => q name)
    (found : d.at? chain = some entry) : ∀ name ∈ chain, q name := by
  induction chain generalizing d with
  | nil => exact fun _ mem => absurd mem List.not_mem_nil
  | cons name rest ih =>
      rw [at?] at found
      split at found
      · rename_i inner entryEq
        have mem := mem_of_find? entryEq
        have innerEvery : inner.Every fun name _ => q name := every_of_mem every mem
        exact List.forall_mem_cons.mpr ⟨holds_of_mem every mem, ih innerEvery found⟩
      · rename_i other _ entryEq
        split at found
        · rename_i last
          rw [last, List.forall_mem_singleton]
          exact holds_of_mem every (mem_of_find? entryEq)
        · cases found
      · cases found

end Directory

namespace Disk

open Directory (IsEntryName parse_below up_notMem)

variable {disk : Disk} {path name : String} {place : Place} {chain : Place} {links : Nat}

/-- The absolute path of a path that goes down goes down from the absolute path of the other one. -/
theorem absolute_below (nonempty : path ≠ "") (named : ∀ name ∈ chain, IsEntryName name) :
    disk.absolute (Path.parse (Path.below path chain)) =
      { disk.absolute (Path.parse path) with
        names := (disk.absolute (Path.parse path)).names ++ chain } := by
  have down := up_notMem named
  rw [parse_below nonempty named, absolute, absolute]
  split
  · rw [← List.append_assoc, Path.collapse_append ⟨"/", _⟩ down]
  · exact Path.collapse_append _ down

/-! ## Where it leads -/

/-- A path leads to a directory at a place through a number of links. -/
structure Reaches (disk : Disk) (path : String) (links : Nat) (place : Place) : Prop where
  nonempty : path ≠ ""
  route : Route disk.look (start disk.here path) (steps path) links place
  there : disk.look place = some .folder

namespace Reaches

/-- A joined name is the last step, behind steps that lead to the directory. -/
theorem exists_front (reaches : disk.Reaches path links place) (joinable : IsJoinable name) :
    ∃ front, steps (Path.join path name) = front ++ [name] ∧
      Route disk.look (start disk.here (Path.join path name)) front links place := by
  rw [start_join reaches.nonempty joinable]
  obtain ⟨front, joined, alone | dotted⟩ := steps_join reaches.nonempty joinable
  · exact ⟨front, joined, alone ▸ reaches.route⟩
  · obtain ⟨middle, m, n, rfl, along, dot⟩ := (dotted ▸ reaches.route).split
    obtain ⟨rfl, rfl, -⟩ := Route.dot_iff.mp dot
    exact ⟨front, joined, along⟩

/-- A joined name is one more step, from the directory on. -/
theorem route_join_iff (reaches : disk.Reaches path links place) (joinable : IsJoinable name)
    {total : Nat} {goal : Place} :
    Route disk.look (start disk.here (Path.join path name)) (steps (Path.join path name)) total goal ↔
      ∃ more, total = links + more ∧ Route disk.look place [name] more goal := by
  obtain ⟨front, joined, along⟩ := reaches.exists_front joinable
  rw [joined]
  constructor
  · intro route
    obtain ⟨middle, m, more, rfl, before, after⟩ := route.split
    obtain ⟨rfl, rfl⟩ := before.deterministic along
    exact ⟨more, rfl, after⟩
  · rintro ⟨more, rfl, after⟩
    exact along.append after

/-- A joined name leads to its own entry, unless the path is too long. -/
theorem resolve_entry (reaches : disk.Reaches path links place) (few : links ≤ maxLinks)
    (named : IsEntryName name) (standing : disk.look (place ++ [name]) ≠ none) :
    disk.resolve (Path.join path name) true =
      if (Path.join path name).utf8ByteSize ≤ maxPathBytes then .ok (place ++ [name])
      else .error .nameTooLong := by
  rw [resolve, if_neg (join_ne_empty reaches.nonempty named.isJoinable)]
  by_cases short : (Path.join path name).utf8ByteSize ≤ maxPathBytes
  · obtain ⟨front, joined, along⟩ := reaches.exists_front named.isJoinable
    have more : [name] = [] → true = false := fun empty => absurd empty (List.cons_ne_nil _ _)
    rw [if_neg (Nat.not_lt.mpr short), if_pos short, joined, along.follow_append_of_more more, if_pos few]
    exact follow_entry reaches.there named.2.2 standing _
  · rw [if_pos (Nat.lt_of_not_le short), if_neg short]

theorem join (reaches : disk.Reaches path links place) (named : IsEntryName name)
    (there : disk.look (place ++ [name]) = some .folder) :
    disk.Reaches (Path.join path name) links (place ++ [name]) where
  nonempty := join_ne_empty reaches.nonempty named.isJoinable
  route := (reaches.route_join_iff named.isJoinable).mpr
    ⟨0, rfl, .enter reaches.there named.2.2 there (by simp) (.done _)⟩
  there := there

/-- Going down from a directory passes no further link. -/
theorem below (reaches : disk.Reaches path links place) (named : ∀ name ∈ chain, IsEntryName name)
    (there : disk.look (place ++ chain) = some .folder) :
    disk.Reaches (Path.below path chain) links (place ++ chain) := by
  induction chain generalizing path place with
  | nil => simpa using reaches
  | cons name rest ih =>
      obtain ⟨first, others⟩ := List.forall_mem_cons.mp named
      rw [List.append_cons] at there ⊢
      have between : disk.look (place ++ [name]) = some .folder := by
        by_cases last : rest = []
        · simpa [last] using there
        · exact Directory.look_folder_of_append last (by rw [← look, there]; simp)
      exact ih (reaches.join first between) others there

end Reaches

/-- A path that leads to a directory reaches it. -/
theorem exists_reaches_iff :
    disk.resolve path = .ok place ∧ disk.look place = some .folder ↔
      path.utf8ByteSize ≤ maxPathBytes ∧ ∃ links ≤ maxLinks, disk.Reaches path links place := by
  rw [resolve_eq_ok_iff]
  constructor
  · rintro ⟨⟨nonempty, short, links, few, route⟩, there⟩
    exact ⟨short, links, few, nonempty, route, there⟩
  · rintro ⟨short, links, few, nonempty, route, there⟩
    exact ⟨⟨nonempty, short, links, few, route⟩, there⟩

end Disk

end StringAudit
