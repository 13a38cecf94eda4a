import StringAudit.Proofs.Collection.Exact

/-!
# Directories that are left out

Leaving out the directories with an ignored name while searching comes to the same as searching all of them
and leaving out the paths that pass one: a path passes the directories between its root and its file, and
neither the root nor the file itself counts.  The directories that are left out are not listed, so that it
does not matter whether they could be.
-/

namespace StringAudit

/-- A disk that does not list some more directories. -/
def Disk.withholding (disk : Disk) (dirs : List String) : Disk :=
  { disk with refusals := { disk.refusals with listing := disk.refusals.listing ++ dirs } }

namespace Collection

open Directory Disk

variable {disk : Disk} {extensions ignored : List String} {root : String} {links : Nat} {place : Place}
  {inner d : Directory} {files : List String}

/-! ## Ways without ignored names -/

/-- Whether no name of a way is ignored. -/
def spared (ignored : List String) (way : Place) : Bool :=
  way.all fun name => !ignored.contains name

theorem spared_iff {way : Place} : spared ignored way = true ↔ ∀ name ∈ way, name ∉ ignored := by
  simp [spared]

/-- The directories that are entered are those among all directories to which a spared way leads. -/
theorem entered_eq_filter (ignored : List String) (d : Directory) :
    entered ignored d = (entered [] d).filter fun sub => spared ignored sub.1 := by
  induction d with
  | empty => rfl
  | file _ _ rest ih => exact ih
  | link _ _ rest ih => exact ih
  | folder name inner rest ihInner ih =>
      have front : (fun sub : Place × Directory => spared ignored sub.1) ∘
          (fun sub : Place × Directory => (name :: sub.1, sub.2)) =
          fun sub => !ignored.contains name && spared ignored sub.1 := rfl
      rw [entered, entered, List.filter_append, ← ih, List.contains_nil, if_neg Bool.false_ne_true,
        List.filter_map, front]
      cases ignored.contains name with
      | true => simp
      | false =>
          have whole : (([], inner) :: entered [] inner).filter (fun sub => spared ignored sub.1) =
              ([], inner) :: entered ignored inner := by
            rw [List.filter_cons_of_pos rfl, ihInner]
          simp only [Bool.not_false, Bool.true_and, whole, Bool.false_eq_true, if_false]

theorem explored_eq_filter (ignored : List String) (d : Directory) :
    explored ignored d = (explored [] d).filter fun sub => spared ignored sub.1 := by
  rw [explored, explored, List.filter_cons_of_pos rfl, entered_eq_filter]

theorem finds_filter (disk : Disk) (search : Search) (path : String) (keep : Place → Bool)
    (dirs : List (Place × Directory)) :
    finds disk search path (dirs.filter fun sub => keep sub.1) =
      (finds disk search path dirs).filter fun find => keep find.way := by
  induction dirs with
  | nil => rfl
  | cons sub rest ih =>
      have same : (fun find : Find => keep find.way) ∘ Find.mk sub.1 = fun _ => keep sub.1 := rfl
      rw [finds_cons, List.filter_append, ← ih, List.filter_map, same, List.filter_cons]
      cases keep sub.1 with
      | true => rw [if_pos rfl, finds_cons, List.filter_true]
      | false => rw [if_neg Bool.false_ne_true, List.filter_false, List.map_nil, List.nil_append]

/-! ## Paths without ignored directories -/

/-- The directories between a root and the file at a path. -/
def directoriesBelow (root path : String) : List String :=
  ((Path.parse path).names.drop (Path.parse root).names.length).dropLast

theorem directoriesBelow_below (nonempty : root ≠ "") {find : Find}
    (named : ∀ name ∈ find.chain, IsEntryName name) :
    directoriesBelow root (Path.below root find.chain) = find.way := by
  rw [directoriesBelow, parse_below nonempty named, List.drop_left, Find.chain, List.dropLast_concat]

/-- Without ignored names a search finds more below a root: all that it found before, and the paths that
pass a directory with an ignored name. -/
theorem collectRoot_pruned (orderly : disk.Orderly)
    (collected : collectRoot disk (Search.of extensions []) root = .ok files) :
    collectRoot disk (Search.of extensions ignored) root =
      .ok (files.filter fun path => spared ignored (directoriesBelow root path)) := by
  obtain ⟨place, inner, usable, resolved, inside, listedEq⟩ := collectRoot_eq_ok collected
  obtain ⟨⟨links, opens⟩, -⟩ :=
    exists_opens_at_iff.mpr ⟨usable, entry_eq_ok_iff.mpr ⟨resolved, inside⟩⟩
  obtain ⟨listable, rfl⟩ := listed_gather_eq_ok_iff.mp listedEq
  have innerAscending : inner.Ascending := every_of_at? orderly.ascending inside
  have innerNamed : inner.Named := every_of_at? orderly.named inside
  rw [opens.collectRoot_eq inside, listed_gather_eq_ok_iff]
  constructor
  · intro sub mem
    have spare : sub ∈ (explored [] inner).filter fun sub => spared ignored sub.1 :=
      explored_eq_filter ignored inner ▸ mem
    exact listable sub (List.mem_filter.mp spare).1
  · have passed : ∀ find ∈ finds disk (Search.of extensions []) root (explored [] inner),
        spared ignored (directoriesBelow root (Path.below root find.chain)) = spared ignored find.way := by
      intro find mem
      obtain ⟨-, -, entry, found, -⟩ := (mem_finds_iff innerAscending).mp mem
      rw [directoriesBelow_below opens.reaches.nonempty (holds_of_at? innerNamed found)]
    rw [List.filter_map]
    refine congrArg (List.map _) ((List.filter_congr passed).trans ?_)
    rw [← finds_filter, ← explored_eq_filter]
    rfl

theorem collect_pruned (orderly : disk.Orderly) {roots : List String}
    (collected : collect disk (Search.of extensions []) roots = .ok files) :
    ∃ lists, List.Forall₂ (fun root found => collectRoot disk (Search.of extensions []) root = .ok found)
        roots lists ∧ files = lists.flatten ∧
      collect disk (Search.of extensions ignored) roots = .ok (List.zipWith (fun root found =>
        found.filter fun path => spared ignored (directoriesBelow root path)) roots lists).flatten := by
  obtain ⟨lists, each, filesEq⟩ := collect_eq_ok_iff.mp collected
  refine ⟨lists, each, filesEq, collect_eq_ok_iff.mpr ⟨_, ?_, rfl⟩⟩
  clear collected filesEq
  induction each with
  | nil => exact .nil
  | cons first _ ih => exact .cons (collectRoot_pruned orderly first) ih

/-! ## Directories that are not listed -/

/-- A path is that of a directory below a root to which no spared way leads. -/
def IsLeftOut (ignored : List String) (root path : String) : Prop :=
  ∃ way : Place, (∀ name ∈ way, IsEntryName name) ∧ spared ignored way = false ∧
    (Path.parse path).collapse = (Path.parse (Path.below root way)).collapse

theorem collapse_below (nonempty : root ≠ "") {way : Place} (named : ∀ name ∈ way, IsEntryName name) :
    (Path.parse (Path.below root way)).collapse.names = (Path.parse root).collapse.names ++ way := by
  rw [parse_below nonempty named, Path.collapse_append _ (up_notMem named)]

/-- What is left out does not say of a directory that is explored that it cannot be listed. -/
theorem listingCause?_withholding (nonempty : root ≠ "") {dirs : List String}
    (leftOut : ∀ path ∈ dirs, IsLeftOut ignored root path) {way : Place}
    (named : ∀ name ∈ way, IsEntryName name) (spare : spared ignored way = true) :
    (disk.withholding dirs).listingCause? (Path.below root way) =
      disk.listingCause? (Path.below root way) := by
  have elsewhere : isAmong dirs (Path.below root way) = false := by
    rw [isAmong, List.any_eq_false]
    intro path mem same
    obtain ⟨other, otherNamed, dropped, pathEq⟩ := leftOut path mem
    have names := congrArg Path.names (pathEq.symm.trans (of_decide_eq_true same))
    rw [collapse_below nonempty otherNamed, collapse_below nonempty named] at names
    rw [List.append_cancel_left names, spare] at dropped
    cases dropped
  have among : isAmong (disk.withholding dirs).refusals.listing (Path.below root way) =
      isAmong disk.refusals.listing (Path.below root way) := by
    rw [isAmong, withholding, List.any_append]
    rw [isAmong] at elsewhere
    rw [elsewhere, Bool.or_false]
    rfl
  rw [listingCause?, listingCause?, among]

theorem gather_withholding {search : Search} (nonempty : root ≠ "") {dirs : List String}
    (leftOut : ∀ path ∈ dirs, IsLeftOut search.ignored root path) {way : Place}
    (named : ∀ name ∈ way, IsEntryName name) (spare : spared search.ignored way = true)
    (inner : d.Named) :
    gather (disk.withholding dirs) search (Path.below root way) d =
      gather disk search (Path.below root way) d := by
  induction d generalizing way with
  | empty => rfl
  | file _ _ rest ih => rw [gather, gather, ih named spare inner.2]
  | link _ _ rest ih =>
      rw [gather, gather, ih named spare inner.2]
      rfl
  | folder name sub rest ihSub ih =>
      obtain ⟨nameNamed, subNamed, restNamed⟩ := inner
      rw [gather, gather, ih named spare restNamed]
      split
      · rfl
      · rename_i unknown
        have deeper : ∀ other ∈ way ++ [name], IsEntryName other :=
          List.forall_mem_append.mpr ⟨named, List.forall_mem_singleton.mpr nameNamed⟩
        have spareDeeper : spared search.ignored (way ++ [name]) = true := by
          rw [spared_iff] at spare ⊢
          exact List.forall_mem_append.mpr
            ⟨spare, List.forall_mem_singleton.mpr (by simpa using unknown)⟩
        simp only [← Path.below_concat, ihSub deeper spareDeeper subNamed, listed,
          listingCause?_withholding nonempty leftOut deeper spareDeeper]

/-- Whether directories can be listed that a search leaves out does not matter to it. -/
theorem collectRoot_withholding (named : disk.root.Named) {search : Search} {dirs : List String}
    (leftOut : ∀ path ∈ dirs, IsLeftOut search.ignored root path) :
    collectRoot (disk.withholding dirs) search root = collectRoot disk search root := by
  have same : (disk.withholding dirs).entry root = disk.entry root := rfl
  rw [collectRoot, collectRoot, same]
  split
  · rename_i place inner found
    split at found
    · obtain ⟨resolved, inside⟩ := entry_eq_ok_iff.mp found
      have nonempty : root ≠ "" := (resolve_eq_ok_iff.mp resolved).1
      have top : ∀ name ∈ ([] : Place), IsEntryName name := fun _ mem => absurd mem List.not_mem_nil
      have innerNamed : inner.Named := every_of_at? named inside
      have gathered : gather (disk.withholding dirs) search (Path.below root []) inner =
          gather disk search (Path.below root []) inner :=
        gather_withholding nonempty leftOut top rfl innerNamed
      have cause : (disk.withholding dirs).listingCause? (Path.below root []) =
          disk.listingCause? (Path.below root []) :=
        listingCause?_withholding nonempty leftOut top rfl
      rw [Path.below_nil] at gathered cause
      rw [listed, listed, cause, gathered]
    · cases found
  · rfl
  · rfl

/-! ## Pruning is filtering -/

/-- A search that leaves out directories finds what a search of all directories finds, without the paths
that pass one of them, and below one root it does not matter to it whether they can be listed. -/
theorem collect_prunes (disk : Disk) (orderly : disk.Orderly) (extensions ignored : List String) :
    (∀ roots files, collect disk (Search.of extensions []) roots = .ok files →
      ∃ lists, List.Forall₂ (fun root found => collectRoot disk (Search.of extensions []) root = .ok found)
          roots lists ∧ files = lists.flatten ∧
        collect disk (Search.of extensions ignored) roots = .ok (List.zipWith (fun root found =>
          found.filter fun path => spared ignored (directoriesBelow root path)) roots lists).flatten) ∧
    ∀ root dirs, (∀ path ∈ dirs, IsLeftOut ignored root path) →
      collect (disk.withholding dirs) (Search.of extensions ignored) [root] =
        collect disk (Search.of extensions ignored) [root] := by
  refine ⟨fun roots files collected => collect_pruned orderly collected, ?_⟩
  intro root dirs leftOut
  rw [collect, collect, collectRoot_withholding orderly.named leftOut]
  rfl

/-- A root, a directory in it and a file in another one, all of the same name. -/
def namesakeDisk : Disk where
  root := .ofList
    [("x.m", .folder (.ofList
      [("b", .folder (.ofList [("x.m", .file ⟨[], 0o644⟩)])),
       ("x.m", .folder (.ofList [("a.m", .file ⟨[], 0o644⟩)]))]))]
  here := []

/-- On `namesakeDisk` only the directory below the root is left out, also if it cannot be listed. -/
theorem collect_prunes_namesakeDisk :
    let full := Search.of ["m"] []
    let pruned := Search.of ["m"] ["x.m"]
    (namesakeDisk.Orderly ∧ collect namesakeDisk full ["x.m"] = .ok ["x.m/b/x.m", "x.m/x.m/a.m"] ∧
      IsLeftOut ["x.m"] "x.m" "x.m/./x.m") ∧
    (∃ lists, List.Forall₂ (fun root found => collectRoot namesakeDisk full root = .ok found)
        ["x.m"] lists ∧ ["x.m/b/x.m", "x.m/x.m/a.m"] = lists.flatten ∧
      collect namesakeDisk pruned ["x.m"] = .ok (List.zipWith (fun root found =>
        found.filter fun path => spared ["x.m"] (directoriesBelow root path)) ["x.m"] lists).flatten) ∧
    collect namesakeDisk pruned ["x.m"] = .ok ["x.m/b/x.m"] ∧
    collect (namesakeDisk.withholding ["x.m/./x.m"]) pruned ["x.m"] =
      collect namesakeDisk pruned ["x.m"] := by
  intro full pruned
  have orderly : namesakeDisk.Orderly := ⟨by decide +kernel, by decide +kernel⟩
  have collected : collect namesakeDisk full ["x.m"] = .ok ["x.m/b/x.m", "x.m/x.m/a.m"] := by
    decide +kernel
  have leftOut : IsLeftOut ["x.m"] "x.m" "x.m/./x.m" :=
    ⟨["x.m"], by decide, by decide +kernel, by decide +kernel⟩
  obtain ⟨filters, ignores⟩ := collect_prunes namesakeDisk orderly ["m"] ["x.m"]
  refine ⟨⟨orderly, collected, leftOut⟩, filters ["x.m"] _ collected, by decide +kernel, ?_⟩
  exact ignores "x.m" ["x.m/./x.m"] (List.forall_mem_singleton.mpr leftOut)

end Collection

end StringAudit
