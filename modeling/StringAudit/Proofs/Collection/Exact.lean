import Mathlib.Data.List.Forall2
import StringAudit.Proofs.Collection.Extension
import StringAudit.Proofs.Collection.Ways

/-!
# What a search finds, exactly

Below a root a search finds every file and every link that does not lead to a directory, once each, if its
name has one of the extensions and the way to it leads through directories with no ignored name.  They
come in the order of their ways, and by name in each directory.

A link leads to a directory if it can be followed there by the path that the search has for it: that path
must not be too long, and the links behind it count together with those of the root.
-/

namespace StringAudit.Collection

open Directory Disk

variable {disk : Disk} {search : Search} {ignored : List String} {root name : String} {links : Nat}
  {place way : Place} {inner : Directory} {files : List String}

/-! ## Roots -/

/-- A root leads to a directory at a place through a number of links. -/
structure Opens (disk : Disk) (root : String) (links : Nat) (place : Place) : Prop where
  usable : isUsable root = true
  short : root.utf8ByteSize ≤ maxPathBytes
  few : links ≤ maxLinks
  reaches : disk.Reaches root links place

theorem Opens.resolve_eq (opens : Opens disk root links place) : disk.resolve root = .ok place :=
  (exists_reaches_iff.mpr ⟨opens.short, links, opens.few, opens.reaches⟩).1

/-- A root leads to one directory, through the same links each time. -/
theorem Opens.unique (opens : Opens disk root links place) {links' : Nat} {place' : Place}
    (other : Opens disk root links' place') : links = links' ∧ place = place' :=
  opens.reaches.route.deterministic other.reaches.route

/-- A root leads to the directory that is found at its place. -/
theorem exists_opens_at_iff :
    (∃ links, Opens disk root links place) ∧ disk.root.at? place = some (.folder inner) ↔
      isUsable root = true ∧ disk.entry root = .ok (place, .folder inner) := by
  rw [entry_eq_ok_iff]
  constructor
  · rintro ⟨⟨links, opens⟩, inside⟩
    exact ⟨opens.usable, opens.resolve_eq, inside⟩
  · rintro ⟨usable, resolved, inside⟩
    have there : disk.look place = some .folder := (look_eq_folder_iff _ _).mpr ⟨inner, inside⟩
    obtain ⟨short, links, few, reaches⟩ := exists_reaches_iff.mp ⟨resolved, there⟩
    exact ⟨⟨links, usable, short, few, reaches⟩, inside⟩

theorem Opens.exists_inner (opens : Opens disk root links place) :
    ∃ inner, disk.root.at? place = some (.folder inner) :=
  (look_eq_folder_iff _ _).mp opens.reaches.there

theorem Opens.collectRoot_eq (opens : Opens disk root links place)
    (inside : disk.root.at? place = some (.folder inner)) (search : Search) :
    collectRoot disk search root = listed disk root (gather disk search root inner) := by
  obtain ⟨usable, found⟩ := exists_opens_at_iff.mp ⟨⟨links, opens⟩, inside⟩
  rw [collectRoot, if_pos usable, found]

/-! ## What counts as a file -/

/-- The entry at a spot, which a path names behind a number of links, can be followed to a directory. -/
def FollowsToDirectory (disk : Disk) (path : String) (links : Nat) (spot : Place) : Prop :=
  path.utf8ByteSize ≤ maxPathBytes ∧
    ∃ more goal, disk.EntryLeads spot more goal ∧ disk.look goal = some .folder ∧ links + more ≤ maxLinks

/-- The entry at a spot counts as a file: it is one, or a link that cannot be followed to a directory. -/
def CountsAsFile (disk : Disk) (path : String) (links : Nat) (spot : Place) : Prop :=
  (∃ contents, disk.look spot = some (.file contents)) ∨
    (∃ target, disk.look spot = some (.link target)) ∧ ¬ FollowsToDirectory disk path links spot

/-- What counts as a file stands there. -/
theorem CountsAsFile.exists_entry {path : String} {spot : Place}
    (counts : CountsAsFile disk path links spot) : ∃ entry, disk.root.at? spot = some entry := by
  obtain ⟨leaf, standing⟩ : ∃ leaf, disk.look spot = some leaf := by
    rcases counts with ⟨contents, file⟩ | ⟨⟨target, link⟩, -⟩
    · exact ⟨_, file⟩
    · exact ⟨_, link⟩
  obtain ⟨entry, found, -⟩ := Option.map_eq_some_iff.mp standing
  exact ⟨entry, found⟩

theorem isDirectory_join_iff {path : String} (reaches : disk.Reaches path links place)
    (named : IsEntryName name) (usable : isUsable (Path.join path name) = true) :
    disk.isDirectory (Path.join path name) = true ↔
      FollowsToDirectory disk (Path.join path name) links (place ++ [name]) := by
  rw [isDirectory_eq_true_iff]
  simp only [usable, true_and, resolve_eq_ok_iff, FollowsToDirectory]
  constructor
  · rintro ⟨goal, ⟨-, short, total, few, route⟩, there⟩
    obtain ⟨more, rfl, onward⟩ := (reaches.route_join_iff named.isJoinable).mp route
    exact ⟨short, more, goal, ⟨place, name, rfl, onward⟩, there, few⟩
  · rintro ⟨short, more, goal, ⟨holder, last, same, onward⟩, there, few⟩
    obtain ⟨rfl, nameEq⟩ := List.append_inj' same rfl
    obtain rfl := List.singleton_inj.mp nameEq
    exact ⟨goal, ⟨join_ne_empty reaches.nonempty named.isJoinable, short, links + more, few,
      (reaches.route_join_iff named.isJoinable).mpr ⟨more, rfl, onward⟩⟩, there⟩

/-! ## Directories and files below a root -/

/-- A search explores the directory at the end of a way. -/
structure IsExplored (disk : Disk) (ignored : List String) (place way : Place) : Prop where
  there : disk.look (place ++ way) = some .folder
  unignored : ∀ name ∈ way, name ∉ ignored

/-- A search finds a file. -/
structure IsFound (disk : Disk) (search : Search) (root : String) (links : Nat) (place : Place)
    (find : Find) : Prop where
  unignored : ∀ name ∈ find.way, name ∉ search.ignored
  extension : HasExtension search.extensions find.name
  counts : CountsAsFile disk (Path.below root find.chain) links (place ++ find.chain)

/-- The directories that are explored are those at the end of ways that pass no ignored name. -/
theorem exists_mem_explored_iff (ascending : inner.Ascending)
    (inside : disk.root.at? place = some (.folder inner)) :
    (∃ sub, (way, sub) ∈ explored ignored inner) ↔ IsExplored disk ignored place way := by
  have there : disk.look (place ++ way) = inner.look way := look_append inside way
  simp only [mem_explored_iff ascending, exists_and_right, ← look_eq_folder_iff, ← there]
  exact ⟨fun both => ⟨both.1, both.2⟩, fun explored => ⟨explored.there, explored.unignored⟩⟩

/-- An entry of a directory below a root is taken for a file if it counts as one. -/
theorem takes_iff {path : String} {entry : Entry} (reaches : disk.Reaches path links place)
    (named : IsEntryName name) (usable : isUsable (Path.join path name) = true)
    (found : disk.root.at? (place ++ [name]) = some entry) :
    takes disk (Path.join path name) entry = true ↔
      CountsAsFile disk (Path.join path name) links (place ++ [name]) := by
  have standing : disk.look (place ++ [name]) = some entry.leaf := by
    rw [Disk.look, Directory.look, found, Option.map_some]
  rw [CountsAsFile, ← isDirectory_join_iff reaches named usable, standing]
  cases entry <;> simp [Entry.leaf]

theorem isUsable_below (usable : isUsable root = true) (named : ∀ name ∈ way, isUsable name = true) :
    isUsable (Path.below root way) = true := by
  induction way generalizing root with
  | nil => exact usable
  | cons name rest ih =>
      obtain ⟨first, others⟩ := List.forall_mem_cons.mp named
      exact ih (isUsable_join usable first) others

/-- What stands at the end of a chain below a root is taken for a file if it counts as one: its path names
it behind the links of the root alone. -/
theorem takes_below_iff (wellFormed : WellFormed disk) (opens : Opens disk root links place)
    {entry : Entry}
    (found : disk.root.at? (place ++ (way ++ [name])) = some entry) :
    takes disk (Path.below root (way ++ [name])) entry = true ↔
      CountsAsFile disk (Path.below root (way ++ [name])) links (place ++ (way ++ [name])) := by
  have names := (List.forall_mem_append.mp (holds_of_at? wellFormed.named found)).2
  have usable := isUsable_below opens.usable
    (List.forall_mem_append.mp (holds_of_at? wellFormed.legible found)).2
  rw [← List.append_assoc] at found ⊢
  have there : disk.look (place ++ way) = some .folder :=
    look_folder_of_append (List.cons_ne_nil name []) (by rw [Directory.look, found]; simp)
  have reaches := opens.reaches.below (fun other mem => names other (List.mem_append_left [name] mem)) there
  rw [Path.below_concat] at usable ⊢
  exact takes_iff reaches (names name (List.mem_append_right way List.mem_cons_self)) usable found

theorem mem_finds_iff_isFound (wellFormed : WellFormed disk) (opens : Opens disk root links place)
    (inside : disk.root.at? place = some (.folder inner)) {find : Find} :
    find ∈ finds disk search root (explored search.ignored inner) ↔
      IsFound disk search root links place find := by
  rw [mem_finds_iff (every_of_at? wellFormed.ascending inside), matches_iff]
  simp only [← at?_append inside]
  constructor
  · rintro ⟨unignored, extension, entry, found, taken⟩
    exact ⟨unignored, extension, (takes_below_iff wellFormed opens found).mp taken⟩
  · rintro ⟨unignored, extension, counts⟩
    obtain ⟨entry, found⟩ := counts.exists_entry
    exact ⟨unignored, extension, entry, found, (takes_below_iff wellFormed opens found).mpr counts⟩

/-! ## What the search below a root comes to -/

/-- Every directory that a search explores below a root can be listed. -/
def Passable (disk : Disk) (ignored : List String) (root : String) : Prop :=
  ∃ links place, Opens disk root links place ∧
    ∀ way, IsExplored disk ignored place way → disk.listingCause? (Path.below root way) = none

/-- A search comes to files below a root: it finds each of them once, in its order. -/
def Yields (disk : Disk) (search : Search) (root : String) (files : List String) : Prop :=
  Passable disk search.ignored root ∧ ∃ links place, Opens disk root links place ∧
    ∃ found : List Find, (∀ find, find ∈ found ↔ IsFound disk search root links place find) ∧
      found.Pairwise Find.Before ∧ files = found.map fun find => Path.below root find.chain

/-- How a search stops at a root: the root is no directory, or a directory that is explored cannot be
listed, the first one in the order of their ways. -/
def StopsAt (disk : Disk) (ignored : List String) (root : String) (failure : Failure) : Prop :=
  (disk.isDirectory root = false ∧ failure = .unlistable root
    (if disk.leadsSomewhere root then "not a directory" else "no such directory")) ∨
  ∃ links place way cause, Opens disk root links place ∧ IsExplored disk ignored place way ∧
    disk.listingCause? (Path.below root way) = some cause ∧
    (∀ other, IsExplored disk ignored place other → other < way →
      disk.listingCause? (Path.below root other) = none) ∧
    failure = .unlistable (Path.below root way) cause.words

section WellFormed

variable (wellFormed : WellFormed disk)
include wellFormed

theorem listable_iff (inside : disk.root.at? place = some (.folder inner)) :
    (∀ sub ∈ explored ignored inner, disk.listingCause? (Path.below root sub.1) = none) ↔
      ∀ way, IsExplored disk ignored place way → disk.listingCause? (Path.below root way) = none := by
  have innerAscending : inner.Ascending := every_of_at? wellFormed.ascending inside
  simp only [← exists_mem_explored_iff innerAscending inside, Prod.forall, forall_exists_index]

/-- The first directory in the order of the search that cannot be listed. -/
theorem exists_isFirst_iff (inside : disk.root.at? place = some (.folder inner)) {dir : String} :
    (∃ front, IsFirst (disk.listingCause? · ≠ none) (root :: visits ignored root inner) front dir) ↔
      ∃ way, Path.below root way = dir ∧ IsExplored disk ignored place way ∧
        disk.listingCause? dir ≠ none ∧
        ∀ other, IsExplored disk ignored place other → other < way →
          disk.listingCause? (Path.below root other) = none := by
  have innerAscending : inner.Ascending := every_of_at? wellFormed.ascending inside
  rw [cons_visits_eq, IsFirst.exists_map_iff]
  simp only [IsFirst.exists_iff_of_pairwise (pairwise_explored innerAscending)
    fun first second => List.lt_asymm, Prod.exists, Prod.forall, not_not]
  simp only [← exists_mem_explored_iff innerAscending inside, forall_exists_index]
  constructor
  · rintro ⟨way, sub, ⟨mem, refused, least⟩, rfl⟩
    exact ⟨way, rfl, ⟨sub, mem⟩, refused, least⟩
  · rintro ⟨way, rfl, ⟨sub, mem⟩, refused, least⟩
    exact ⟨way, sub, ⟨mem, refused, least⟩, rfl⟩

theorem passable_iff_searchable : Passable disk ignored root ↔ Searchable disk ignored root := by
  have searched : ∀ inner, (∀ dir, dir = root ∨ Within ignored root inner dir →
      disk.listingCause? dir = none) ↔
      ∀ sub ∈ explored ignored inner, disk.listingCause? (Path.below root sub.1) = none := by
    intro inner
    simp only [← mem_visits_iff, ← List.mem_cons, cons_visits_eq, List.forall_mem_map]
  simp only [Searchable, searched]
  constructor
  · rintro ⟨links, place, opens, listable⟩
    obtain ⟨inner, inside⟩ := opens.exists_inner
    obtain ⟨usable, found⟩ := exists_opens_at_iff.mp ⟨⟨links, opens⟩, inside⟩
    exact ⟨usable, place, inner, found, (listable_iff wellFormed inside).mpr listable⟩
  · rintro ⟨usable, place, inner, found, listable⟩
    obtain ⟨⟨links, opens⟩, inside⟩ := exists_opens_at_iff.mpr ⟨usable, found⟩
    exact ⟨links, place, opens, (listable_iff wellFormed inside).mp listable⟩

theorem stopsAt_iff_blocked {failure : Failure} :
    StopsAt disk ignored root failure ↔ Blocked disk ignored root failure := by
  constructor
  · rintro (⟨notDirectory, rfl⟩ | ⟨links, place, way, cause, opens, explored, refused, least, rfl⟩)
    · by_cases somewhere : disk.leadsSomewhere root = true
      · rw [if_pos somewhere]
        exact .leaf somewhere notDirectory
      · rw [if_neg somewhere]
        exact .missing (Bool.eq_false_iff.mpr somewhere)
    · obtain ⟨inner, inside⟩ := opens.exists_inner
      obtain ⟨usable, found⟩ := exists_opens_at_iff.mp ⟨⟨links, opens⟩, inside⟩
      obtain ⟨front, first⟩ := (exists_isFirst_iff wellFormed inside).mpr
        ⟨way, rfl, explored, by simp [refused], least⟩
      exact .refused usable found first refused
  · intro blocked
    cases blocked with
    | missing nowhere =>
        refine Or.inl ⟨?_, by rw [nowhere]; rfl⟩
        rw [Bool.eq_false_iff, ne_eq, isDirectory_eq_true_iff]
        rintro ⟨usable, place, resolved, there⟩
        obtain ⟨inner, inside⟩ := (look_eq_folder_iff _ _).mp there
        simp [leadsSomewhere, usable, entry_eq_ok_iff.mpr ⟨resolved, inside⟩, Except.isOk,
          Except.toBool] at nowhere
    | leaf somewhere leaf => exact Or.inl ⟨leaf, by rw [somewhere]; rfl⟩
    | refused usable found first refused =>
        obtain ⟨⟨links, opens⟩, inside⟩ := exists_opens_at_iff.mpr ⟨usable, found⟩
        obtain ⟨way, rfl, explored, -, least⟩ := (exists_isFirst_iff wellFormed inside).mp ⟨_, first⟩
        exact Or.inr ⟨links, _, way, _, opens, explored, refused, least, rfl⟩

/-- The search below a root comes to what it finds there. -/
theorem collectRoot_eq_ok_iff : collectRoot disk search root = .ok files ↔ Yields disk search root files := by
  constructor
  · intro collected
    obtain ⟨place, inner, usable, resolved, inside, listedEq⟩ := collectRoot_eq_ok collected
    obtain ⟨⟨links, opens⟩, -⟩ :=
      exists_opens_at_iff.mpr ⟨usable, entry_eq_ok_iff.mpr ⟨resolved, inside⟩⟩
    obtain ⟨listable, filesEq⟩ := listed_gather_eq_ok_iff.mp listedEq
    refine ⟨⟨links, place, opens, (listable_iff wellFormed inside).mp listable⟩, links, place, opens, _,
      fun find => mem_finds_iff_isFound wellFormed opens inside,
      pairwise_finds (every_of_at? wellFormed.ascending inside), filesEq⟩
  · rintro ⟨⟨links', place', opens', listable⟩, links, place, opens, found, mem_found, ordered, rfl⟩
    obtain ⟨rfl, rfl⟩ := opens.unique opens'
    obtain ⟨inner, inside⟩ := opens.exists_inner
    have innerAscending : inner.Ascending := every_of_at? wellFormed.ascending inside
    have same : found = finds disk search root (explored search.ignored inner) := by
      refine Find.eq_of_pairwise ordered (pairwise_finds innerAscending) fun find => ?_
      rw [mem_found, mem_finds_iff_isFound wellFormed opens inside]
    rw [opens.collectRoot_eq inside, listed_gather_eq_ok_iff, same]
    exact ⟨(listable_iff wellFormed inside).mpr listable, rfl⟩

end WellFormed

theorem collect_eq_ok_iff {roots : List String} :
    collect disk search roots = .ok files ↔
      ∃ lists, List.Forall₂ (fun root found => collectRoot disk search root = .ok found) roots lists ∧
        files = lists.flatten := by
  induction roots generalizing files with
  | nil =>
      simp only [List.forall₂_nil_left_iff, exists_eq_left, collect, Except.ok.injEq, List.flatten_nil]
      exact eq_comm
  | cons root rest ih =>
      simp only [collect_cons_eq_ok_iff, List.forall₂_cons_left_iff, ih]
      constructor
      · rintro ⟨first, _, firstEq, ⟨lists, each, rfl⟩, rfl⟩
        exact ⟨_, ⟨first, lists, firstEq, each, rfl⟩, List.flatten_cons.symm⟩
      · rintro ⟨_, ⟨first, lists, firstEq, each, rfl⟩, rfl⟩
        exact ⟨first, _, firstEq, ⟨lists, each, rfl⟩, List.flatten_cons⟩

/-- A search comes to what it finds below each root, in the order of the roots, and it stops at the first
root below which something cannot be listed. -/
theorem collect_exactly (disk : Disk) (wellFormed : WellFormed disk)
    (extensions ignored roots : List String) :
    (∀ files, collect disk (Search.of extensions ignored) roots = .ok files ↔
      ∃ lists, List.Forall₂ (Yields disk (Search.of extensions ignored)) roots lists ∧
        files = lists.flatten) ∧
    ∀ failure, collect disk (Search.of extensions ignored) roots = .error failure ↔
      ∃ front root, IsFirst (fun root => ¬ Passable disk ignored root) roots front root ∧
        StopsAt disk ignored root failure := by
  constructor
  · intro files
    simp only [collect_eq_ok_iff, collectRoot_eq_ok_iff wellFormed]
  · intro failure
    simp only [collect_eq_error_iff, passable_iff_searchable wellFormed, stopsAt_iff_blocked wellFormed,
      Search.of]

/-- Directories with files, links of every kind, an ignored directory and one that cannot be listed. -/
def mazeDisk : Disk where
  root := .ofList
    [("app", .folder (.ofList
      [("Main.M", .file ⟨[], 0o644⟩),
       ("Pods", .folder (.ofList [("skipped.m", .file ⟨[], 0o644⟩)])),
       ("b", .folder (.ofList
        [("a", .folder (.ofList [("deep.m", .file ⟨[], 0o644⟩)])), ("z.m", .file ⟨[], 0o644⟩)])),
       ("dangling.m", .link "nowhere"),
       ("directory.m", .link "b"),
       ("loop.m", .link "loop.m"),
       ("notes.txt", .file ⟨[], 0o644⟩),
       ("other.m", .link "Main.M")])),
     ("closed", .folder (.ofList [("inner", .folder .empty)])),
     ("door", .link "app/b")]
  here := []
  refusals := { listing := ["closed/inner"] }

/-- What a search finds on `mazeDisk`, and where it stops there. -/
theorem collect_exactly_mazeDisk :
    WellFormed mazeDisk ∧
    (∃ lists, List.Forall₂ (Yields mazeDisk (Search.of [".m"] ["Pods"])) ["app", "door"] lists ∧
      ["app/Main.M", "app/dangling.m", "app/loop.m", "app/other.m", "app/b/z.m", "app/b/a/deep.m",
        "door/z.m", "door/a/deep.m"] = lists.flatten) ∧
    ∃ front root, IsFirst (fun root => ¬ Passable mazeDisk ["Pods"] root) ["app", "closed", "nowhere"]
        front root ∧
      StopsAt mazeDisk ["Pods"] root (.unlistable "closed/inner" "Permission denied") := by
  have wellFormed : WellFormed mazeDisk :=
    { ascending := by decide +kernel, named := by decide +kernel, legible := by decide +kernel }
  have succeeds := (collect_exactly mazeDisk wellFormed [".m"] ["Pods"] ["app", "door"]).1
  have fails := (collect_exactly mazeDisk wellFormed [".m"] ["Pods"] ["app", "closed", "nowhere"]).2
  exact ⟨wellFormed, (succeeds _).mp (by decide +kernel), (fails _).mp (by decide +kernel)⟩

/-- A directory with a link to itself and one to a directory beside it. -/
def loopDisk : Disk where
  root := .ofList
    [("box", .folder (.ofList [("l", .link "."), ("x.m", .link "../dir")])), ("dir", .folder .empty)]
  here := []

/-- Behind a root with forty links, the link to a directory is one too many and counts as a file. -/
theorem collect_counts_link_to_directory_loopDisk :
    let root := String.join ("box" :: List.replicate 40 "/l")
    collect loopDisk (Search.of ["m"] []) [root] = .ok [root ++ "/x.m"] ∧
      loopDisk.look ["box", "x.m"] = some (.link "../dir") ∧
      (∃ links, loopDisk.EntryLeads ["box", "x.m"] links ["dir"]) ∧
      loopDisk.look ["dir"] = some .folder := by
  have followed : follow loopDisk.root false 1 ["box"] ["x.m"] = .ok ["dir"] := by decide +kernel
  refine ⟨by decide +kernel, by decide +kernel, ?_, by decide +kernel⟩
  obtain ⟨links, -, route⟩ := route_of_follow followed
  exact ⟨links, ["box"], "x.m", rfl, route⟩

end StringAudit.Collection
