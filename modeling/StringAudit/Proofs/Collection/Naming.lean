import StringAudit.Proofs.Collection.Exact

/-!
# The paths that a search finds

The path of a file is the root as given, joined with the names that lead to the file.  The same path comes
out if the file and the root are both made absolute and collapsed, without a look at the disk, and the root
is joined with what leads from the one to the other.  The links and the `..` that the root is spelled with
do not matter to that, because both sides have them in common.

A path leads to the very entry that was found, unless it has grown too long, and no two files below a root
have the same path.
-/

namespace StringAudit

/-! ## From one path to another -/

/-- The names that lead from a directory to an entry, both given by all the names above them. -/
def Path.between : List String → List String → List String
  | name :: source, other :: goal =>
      if name = other then between source goal
      else List.replicate (source.length + 1) ".." ++ other :: goal
  | source, goal => List.replicate source.length ".." ++ goal

theorem Path.between_append (source down : List String) : between source (source ++ down) = down := by
  induction source with
  | nil => cases down <;> rfl
  | cons name rest ih => rw [List.cons_append, between, if_pos rfl, ih]

/-- The path that leads from a directory to an entry, found without looking at the disk. -/
def Disk.relative (disk : Disk) (path base : String) : String :=
  Path.text ⟨"", Path.between (disk.absolute (Path.parse base)).names (disk.absolute (Path.parse path)).names⟩

/-- What leads from a directory down to an entry is the chain of names between them. -/
theorem Disk.relative_below (disk : Disk) {base : String} {chain : Place} (nonempty : base ≠ "")
    (named : ∀ name ∈ chain, Directory.IsEntryName name) (deeper : chain ≠ []) :
    disk.relative (Path.below base chain) base = "/".intercalate chain := by
  rw [relative, absolute_below nonempty named, Path.between_append, Path.text,
    if_neg fun both => deeper both.2, String.empty_append]

namespace Collection

open Directory Disk

variable {disk : Disk} {search : Search} {root : String} {links : Nat} {place : Place} {find : Find}

theorem IsFound.isEntryName (found : IsFound disk search root links place find)
    (named : disk.root.Named) : ∀ name ∈ find.chain, IsEntryName name := by
  obtain ⟨_, entryEq⟩ := found.counts.exists_entry
  exact fun name mem => holds_of_at? named entryEq name (List.mem_append_right place mem)

/-- The path of a file is made of the root and the names that lead to the file. -/
def pathOf (root : String) (find : Find) : String :=
  Path.join root ("/".intercalate find.chain)

theorem below_eq_pathOf (nonempty : root ≠ "") (named : ∀ name ∈ find.chain, IsEntryName name) :
    Path.below root find.chain = pathOf root find :=
  Path.below_eq_join nonempty (fun name mem => (named name mem).isJoinable) (by simp [Find.chain])

/-- The path of a file leads to its own entry. -/
theorem Opens.resolve_pathOf (opens : Opens disk root links place) (named : disk.root.Named)
    (found : IsFound disk search root links place find) :
    disk.resolve (pathOf root find) true =
      if (pathOf root find).utf8ByteSize ≤ maxPathBytes then .ok (place ++ find.chain)
      else .error .nameTooLong := by
  have names := found.isEntryName named
  have standing : disk.look (place ++ find.chain) ≠ none := by
    obtain ⟨_, entryEq⟩ := found.counts.exists_entry
    simp [Disk.look, Directory.look, entryEq]
  rw [← below_eq_pathOf opens.reaches.nonempty names]
  simp only [Find.chain, Path.below_concat] at names standing ⊢
  rw [← List.append_assoc] at standing ⊢
  have there : disk.look (place ++ find.way) = some .folder :=
    look_folder_of_append (List.cons_ne_nil find.name []) standing
  have reaches := opens.reaches.below
    (fun name mem => names name (List.mem_append_left [find.name] mem)) there
  exact reaches.resolve_entry opens.few
    (names find.name (List.mem_append_right find.way List.mem_cons_self)) standing

/-- Files with the same path are the same. -/
theorem pathOf_injective (nonempty : root ≠ "") {other : Find}
    (named : ∀ name ∈ find.chain, IsEntryName name) (otherNamed : ∀ name ∈ other.chain, IsEntryName name)
    (same : pathOf root find = pathOf root other) : find = other := by
  rw [← below_eq_pathOf nonempty named, ← below_eq_pathOf nonempty otherNamed] at same
  have parsed := congrArg (fun text => (Path.parse text).names) same
  have names : ∀ {find : Find}, (∀ name ∈ find.chain, IsEntryName name) →
      (Path.parse (Path.below root find.chain)).names = (Path.parse root).names ++ find.chain := by
    intro find named
    rw [parse_below nonempty named]
  simp only [names named, names otherNamed, List.append_cancel_left_eq] at parsed
  obtain ⟨wayEq, nameEq⟩ := List.append_inj' parsed rfl
  cases find
  cases other
  rw [Find.mk.injEq]
  exact ⟨wayEq, List.singleton_inj.mp nameEq⟩

/-- The paths below a root are those of the files that a search finds there, and name them. -/
def NamesWhatItFinds (disk : Disk) (search : Search) (root : String) (files : List String) : Prop :=
  ∃ links place, Opens disk root links place ∧
    ∃ found : List Find, (∀ find, find ∈ found ↔ IsFound disk search root links place find) ∧
      files = found.map (pathOf root) ∧
      (∀ find ∈ found, ∀ other ∈ found, pathOf root find = pathOf root other → find = other) ∧
      ∀ find ∈ found,
        Path.join root (disk.relative (Path.below root find.chain) root) = pathOf root find ∧
        disk.resolve (pathOf root find) true =
          if (pathOf root find).utf8ByteSize ≤ maxPathBytes then .ok (place ++ find.chain)
          else .error .nameTooLong

theorem Yields.names (named : disk.root.Named) {files : List String}
    (yields : Yields disk search root files) : NamesWhatItFinds disk search root files := by
  obtain ⟨-, links, place, opens, found, mem_found, -, rfl⟩ := yields
  have nonempty := opens.reaches.nonempty
  have names : ∀ find ∈ found, ∀ name ∈ find.chain, IsEntryName name :=
    fun find mem => ((mem_found find).mp mem).isEntryName named
  refine ⟨links, place, opens, found, mem_found, ?_, ?_, ?_⟩
  · exact List.map_congr_left fun find mem => below_eq_pathOf nonempty (names find mem)
  · exact fun find mem other otherMem => pathOf_injective nonempty (names find mem) (names other otherMem)
  · intro find mem
    refine ⟨?_, opens.resolve_pathOf named ((mem_found find).mp mem)⟩
    rw [disk.relative_below nonempty (names find mem) (by simp [Find.chain]), pathOf]

/-- A search below directories that can be listed finds paths that are the roots as given, joined with the
names that lead to the files. -/
theorem collect_names (disk : Disk) (wellFormed : WellFormed disk) (search : Search) {roots : List String}
    (passable : ∀ root ∈ roots, Passable disk search.ignored root) :
    ∃ lists, collect disk search roots = .ok lists.flatten ∧
      List.Forall₂ (NamesWhatItFinds disk search) roots lists := by
  obtain ⟨files, collected⟩ := exists_collect_iff.mpr fun root mem =>
    (passable_iff_searchable wellFormed).mp (passable root mem)
  obtain ⟨lists, each, rfl⟩ := collect_eq_ok_iff.mp collected
  refine ⟨lists, collected, each.imp fun root found listed => ?_⟩
  exact ((collectRoot_eq_ok_iff wellFormed).mp listed).names wellFormed.named

/-- A directory that a link leads to from elsewhere. -/
def doorDisk : Disk where
  root := .ofList
    [("app", .folder (.ofList
      [("main.m", .file ⟨[], 0o644⟩), ("views", .folder (.ofList [("list.m", .link "../main.m")]))])),
     ("lib", .folder (.ofList [("door", .link "../app/views")]))]
  here := []

/-- On `doorDisk` the root `lib/door/..//` is `app`, although it reads like `lib`. -/
theorem collect_names_doorDisk :
    let roots := ["lib/door/..//", "./app/views/."]
    (WellFormed doorDisk ∧ ∀ root ∈ roots, Passable doorDisk [] root) ∧
    ∃ lists, collect doorDisk (Search.of ["m"] []) roots = .ok lists.flatten ∧
      lists.flatten = ["lib/door/..//main.m", "lib/door/..//views/list.m", "./app/views/./list.m"] ∧
      List.Forall₂ (NamesWhatItFinds doorDisk (Search.of ["m"] [])) roots lists := by
  intro roots
  have wellFormed : WellFormed doorDisk :=
    { ascending := by decide +kernel, named := by decide +kernel, legible := by decide +kernel }
  have collected : collect doorDisk (Search.of ["m"] []) roots =
      .ok ["lib/door/..//main.m", "lib/door/..//views/list.m", "./app/views/./list.m"] := by
    decide +kernel
  have passable : ∀ root ∈ roots, Passable doorDisk [] root := fun root mem =>
    (passable_iff_searchable wellFormed).mpr (exists_collect_iff.mp ⟨_, collected⟩ root mem)
  obtain ⟨lists, flattened, each⟩ :=
    collect_names doorDisk wellFormed (Search.of ["m"] []) passable
  exact ⟨⟨wellFormed, passable⟩, lists, flattened,
    Except.ok.inj (flattened.symm.trans collected), each⟩

/-! ## Paths that are too long -/

/-- A directory with a file. -/
def plainDisk : Disk where
  root := .ofList [("app", .folder (.ofList [("main.m", .file ⟨[], 0o644⟩)]))]
  here := []

/-- A path that goes into a directory and out of it so many times before it stays there. -/
def windingRoot : Nat → String
  | 0 => "app"
  | n + 1 => "app" ++ "/" ++ (".." ++ "/" ++ windingRoot n)

theorem utf8ByteSize_windingRoot (n : Nat) : (windingRoot n).utf8ByteSize = 7 * n + 3 := by
  induction n with
  | zero => rfl
  | succ n ih =>
      simp only [windingRoot, String.utf8ByteSize_append, ih, show "app".utf8ByteSize = 3 from rfl,
        show "/".utf8ByteSize = 1 from rfl, show "..".utf8ByteSize = 2 from rfl]
      omega

theorem exists_pieces_windingRoot (n : Nat) :
    ∃ front, Path.pieces (windingRoot n) = front ++ ["app"] ∧ front.filter (· ≠ "") = front ∧
      Route plainDisk.look [] (front ++ ["app"]) 0 ["app"] := by
  have step : IsStep "app" := ⟨by decide, by decide, by decide⟩
  have there : plainDisk.look [] = some .folder := rfl
  have app : plainDisk.look ["app"] = some .folder := by decide +kernel
  induction n with
  | zero =>
      exact ⟨[], Path.pieces_eq_singleton (by decide), rfl, .enter there step app (by simp) (.done _)⟩
  | succ n ih =>
      obtain ⟨front, piecesEq, filtered, route⟩ := ih
      refine ⟨"app" :: ".." :: front, ?_, ?_, ?_⟩
      · rw [windingRoot, Path.pieces_append_slash, Path.pieces_append_slash, piecesEq,
          Path.pieces_eq_singleton (by decide), Path.pieces_eq_singleton (by decide)]
        rfl
      · rw [List.filter_cons_of_pos (by decide), List.filter_cons_of_pos (by decide), filtered]
      · exact .enter there step app (by simp) (.up app rfl route)

theorem start_windingRoot (n : Nat) : start [] (windingRoot n) = [] := by
  rw [start]
  split <;> rfl

theorem isUsable_windingRoot (n : Nat) : isUsable (windingRoot n) = true := by
  rw [isUsable_iff]
  induction n with
  | zero => decide
  | succ n ih => simpa [windingRoot] using ih

theorem opens_windingRoot {n : Nat} (short : 7 * n + 3 ≤ maxPathBytes) :
    Opens plainDisk (windingRoot n) 0 ["app"] where
  usable := isUsable_windingRoot n
  short := by rwa [utf8ByteSize_windingRoot]
  few := Nat.zero_le _
  reaches := by
    obtain ⟨front, piecesEq, filtered, route⟩ := exists_pieces_windingRoot n
    refine ⟨?_, ?_, by decide +kernel⟩
    · rw [ne_eq, ← String.utf8ByteSize_eq_zero_iff, utf8ByteSize_windingRoot]
      omega
    · rw [show plainDisk.here = [] from rfl, start_windingRoot, steps_of_name (by decide) piecesEq,
        filtered]
      exact route

/-- A file is found whose path is too long to lead anywhere, because the root takes up most of it. -/
theorem resolve_ne_ok_plainDisk :
    let path := Path.join (windingRoot 584) "main.m"
    collect plainDisk (Search.of ["m"] []) [windingRoot 584] = .ok [path] ∧
      plainDisk.look ["app", "main.m"] = some (.file ⟨[], 0o644⟩) ∧
      plainDisk.resolve path true = .error .nameTooLong := by
  intro path
  have opens : Opens plainDisk (windingRoot 584) 0 ["app"] := opens_windingRoot (by decide)
  have inside : plainDisk.root.at? ["app"] = some (.folder (.file "main.m" ⟨[], 0o644⟩ .empty)) := by
    decide +kernel
  have file : plainDisk.look ["app", "main.m"] = some (.file ⟨[], 0o644⟩) := by decide +kernel
  have name : IsEntryName "main.m" := by decide
  have long : ¬ path.utf8ByteSize ≤ maxPathBytes := by
    have least := Path.le_utf8ByteSize_join name.isJoinable (windingRoot 584)
    rw [utf8ByteSize_windingRoot, show "main.m".utf8ByteSize = 6 from rfl] at least
    exact Nat.not_le.mpr (Nat.lt_of_lt_of_le (by decide) least)
  have listable : plainDisk.listingCause? (windingRoot 584) = none := by
    rw [listingCause?, show isAmong plainDisk.refusals.listing _ = false from rfl,
      if_neg Bool.false_ne_true, if_neg (Nat.not_lt.mpr opens.short)]
  have looked : (Search.of ["m"] []).matches "main.m" = true := by decide +kernel
  refine ⟨?_, file, ?_⟩
  · rw [collect, opens.collectRoot_eq inside, listed, listable, gather, looked]
    rfl
  · have standing : plainDisk.look (["app"] ++ ["main.m"]) ≠ none := Option.ne_none_iff_exists'.mpr ⟨_, file⟩
    exact (opens.reaches.resolve_entry opens.few name standing).trans (if_neg long)

end Collection

end StringAudit
