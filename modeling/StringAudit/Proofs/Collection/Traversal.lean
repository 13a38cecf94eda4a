import StringAudit.Proofs.Collection
import StringAudit.Proofs.First

/-!
# The directories of a search

Below a root a search lists the root itself and then, one after the other, the directories that it
reaches through neither an ignored name nor a link.  It succeeds exactly if every root is a directory and
all of these can be listed, whatever files it looks for.  Otherwise it fails at the first root that does
not let itself be searched, and there at the first directory that cannot be listed.
-/

namespace StringAudit.Collection

variable {disk : Disk} {search : Search} {ignored : List String} {path sub : String} {d : Directory}

/-! ## The order of the directories -/

/-- The directories below a directory at a path, in the order in which a search lists them. -/
def visits (ignored : List String) (path : String) : Directory → List String
  | .empty => []
  | .file _ _ rest => visits ignored path rest
  | .link _ _ rest => visits ignored path rest
  | .folder name inner rest =>
      (if ignored.contains name then []
        else Path.join path name :: visits ignored (Path.join path name) inner) ++
      visits ignored path rest

/-- A path is that of a directory below the one at another path, and no name on the way is ignored. -/
inductive Within (ignored : List String) : String → Directory → String → Prop
  | child {path name : String} {inner d : Directory} (mem : (name, .folder inner) ∈ d.toList)
      (entered : name ∉ ignored) : Within ignored path d (Path.join path name)
  | deeper {path name sub : String} {inner d : Directory} (mem : (name, .folder inner) ∈ d.toList)
      (entered : name ∉ ignored) (within : Within ignored (Path.join path name) inner sub) :
      Within ignored path d sub

theorem Within.mono {whole : Directory} (within : Within ignored path d sub)
    (part : d.toList ⊆ whole.toList) : Within ignored path whole sub := by
  cases within with
  | child mem entered => exact .child (part mem) entered
  | deeper mem entered below => exact .deeper (part mem) entered below

theorem visits_subset {name : String} {inner : Directory} (mem : (name, .folder inner) ∈ d.toList)
    (entered : name ∉ ignored) :
    Path.join path name :: visits ignored (Path.join path name) inner ⊆ visits ignored path d := by
  induction d with
  | empty => exact absurd mem List.not_mem_nil
  | file _ _ rest ih =>
      obtain ⟨⟨⟩⟩ | later := List.mem_cons.mp mem
      exact ih later
  | link _ _ rest ih =>
      obtain ⟨⟨⟩⟩ | later := List.mem_cons.mp mem
      exact ih later
  | folder other _ rest _ ih =>
      rw [visits]
      rcases List.mem_cons.mp mem with same | later
      · cases same
        rw [if_neg (by simpa using entered)]
        exact List.subset_append_left _ _
      · exact List.Subset.trans (ih later) (List.subset_append_right _ _)

/-- A search lists the directories that it reaches through neither an ignored name nor a link. -/
theorem mem_visits_iff : sub ∈ visits ignored path d ↔ Within ignored path d sub := by
  constructor
  · intro mem
    induction d generalizing path with
    | empty => exact absurd mem List.not_mem_nil
    | file _ _ rest ih => exact (ih mem).mono (List.subset_cons_self _ _)
    | link _ _ rest ih => exact (ih mem).mono (List.subset_cons_self _ _)
    | folder name inner rest ihInner ih =>
        rcases List.mem_append.mp mem with here | later
        · split at here
          · exact absurd here List.not_mem_nil
          · rename_i entered
            have first : (name, Entry.folder inner) ∈ (Directory.folder name inner rest).toList :=
              List.mem_cons_self
            have unknown : name ∉ ignored := by simpa using entered
            rcases List.mem_cons.mp here with rfl | below
            · exact .child first unknown
            · exact .deeper first unknown (ihInner below)
        · exact (ih later).mono (List.subset_cons_self _ _)
  · intro within
    induction within with
    | child mem entered => exact visits_subset mem entered List.mem_cons_self
    | deeper mem entered _ ih => exact visits_subset mem entered (List.mem_cons_of_mem _ ih)

/-! ## Listing them -/

/-- List a directory, for nothing but to see whether that can be done. -/
def enter (disk : Disk) (dir : String) : Except Failure Unit :=
  match disk.listingCause? dir with
  | some cause => .error (.unlistable dir cause.words)
  | none => .ok ()

/-- A result without its value. -/
def outcome {α : Type} (result : Except Failure α) : Except Failure Unit :=
  (fun _ => ()) <$> result

theorem exists_of_outcome_eq {α β : Type} {first : Except Failure α} {second : Except Failure β}
    (same : outcome first = outcome second) : (∃ a, first = .ok a) ↔ ∃ b, second = .ok b := by
  cases first <;> cases second <;> simp_all [outcome, Functor.map, Except.map]

theorem error_iff_of_outcome_eq {α β : Type} {first : Except Failure α} {second : Except Failure β}
    (same : outcome first = outcome second) {failure : Failure} :
    first = .error failure ↔ second = .error failure := by
  cases first <;> cases second <;> simp_all [outcome, Functor.map, Except.map]

theorem outcome_mapM_cons (dir : String) (dirs : List String) :
    outcome ((dir :: dirs).mapM (enter disk)) =
      enter disk dir >>= fun _ => outcome (dirs.mapM (enter disk)) := by
  rw [List.mapM_cons]
  cases enter disk dir <;> cases dirs.mapM (enter disk) <;> rfl

theorem outcome_mapM_append (dirs others : List String) :
    outcome ((dirs ++ others).mapM (enter disk)) =
      outcome (dirs.mapM (enter disk)) >>= fun _ => outcome (others.mapM (enter disk)) := by
  rw [List.mapM_append]
  cases dirs.mapM (enter disk) <;> cases others.mapM (enter disk) <;> rfl

theorem outcome_listed (found : Found) :
    outcome (listed disk path found) = enter disk path >>= fun _ => outcome found.below := by
  rw [listed, enter]
  cases disk.listingCause? path with
  | some cause => rfl
  | none => cases found.below <;> rfl

/-- Searching below a directory is listing, one after the other, the directories below it. -/
theorem outcome_below (disk : Disk) (search : Search) (path : String) (d : Directory) :
    outcome (gather disk search path d).below =
      outcome ((visits search.ignored path d).mapM (enter disk)) := by
  induction d generalizing path with
  | empty => rfl
  | file name contents rest ih =>
      rw [visits, ← ih, gather]
      split <;> rfl
  | link name target rest ih =>
      rw [visits, ← ih, gather]
      split <;> rfl
  | folder name inner rest ihInner ih =>
      rw [visits, gather, outcome_mapM_append, ← ih]
      split
      · rfl
      · rw [outcome_mapM_cons, ← ihInner, ← outcome_listed]
        simp only
        cases listed disk (Path.join path name) (gather disk search (Path.join path name) inner) <;>
          cases (gather disk search path rest).below <;> rfl

/-! ## Below a root -/

/-- A root is a directory, and it and every directory that is reached below it can be listed. -/
def Searchable (disk : Disk) (ignored : List String) (root : String) : Prop :=
  Disk.isUsable root = true ∧ ∃ place inner, disk.entry root = .ok (place, .folder inner) ∧
    ∀ dir, dir = root ∨ Within ignored root inner dir → disk.listingCause? dir = none

/-- How the search below a root fails: the root is nothing at all, or no directory, or a directory cannot
be listed, the first one in the order of the search. -/
inductive Blocked (disk : Disk) (ignored : List String) (root : String) : Failure → Prop
  | missing (nowhere : disk.leadsSomewhere root = false) :
      Blocked disk ignored root (.unlistable root "no such directory")
  | leaf (somewhere : disk.leadsSomewhere root = true) (leaf : disk.isDirectory root = false) :
      Blocked disk ignored root (.unlistable root "not a directory")
  | refused {place : Place} {inner : Directory} {front : List String} {dir : String}
      {cause : Disk.Cause} (usable : Disk.isUsable root = true)
      (found : disk.entry root = .ok (place, .folder inner))
      (first : IsFirst (disk.listingCause? · ≠ none) (root :: visits ignored root inner) front dir)
      (why : disk.listingCause? dir = some cause) :
      Blocked disk ignored root (.unlistable dir cause.words)

theorem permitted_iff {dir : String} :
    (∃ listed, enter disk dir = .ok listed) ↔ disk.listingCause? dir = none := by
  rw [enter]
  cases disk.listingCause? dir <;> simp

/-- Searching a root directory is listing it and then the directories below it. -/
theorem outcome_listed_gather (disk : Disk) (search : Search) (root : String) (inner : Directory) :
    outcome (listed disk root (gather disk search root inner)) =
      outcome ((root :: visits search.ignored root inner).mapM (enter disk)) := by
  rw [outcome_listed, outcome_below, outcome_mapM_cons]

theorem exists_listed_iff {root : String} {inner : Directory} :
    (∃ files, listed disk root (gather disk search root inner) = .ok files) ↔
      ∀ dir, dir = root ∨ Within search.ignored root inner dir →
        disk.listingCause? dir = none := by
  rw [exists_of_outcome_eq (outcome_listed_gather disk search root inner), Pool.exists_mapM_iff]
  refine forall_congr' fun dir => ?_
  rw [List.mem_cons, mem_visits_iff, permitted_iff]

theorem listed_eq_error_iff {root : String} {inner : Directory} {failure : Failure} :
    listed disk root (gather disk search root inner) = .error failure ↔
      ∃ front dir cause,
        IsFirst (disk.listingCause? · ≠ none) (root :: visits search.ignored root inner) front dir ∧
        disk.listingCause? dir = some cause ∧ failure = .unlistable dir cause.words := by
  rw [error_iff_of_outcome_eq (outcome_listed_gather disk search root inner),
    Pool.mapM_eq_error_iff fun _ => not_congr permitted_iff.symm]
  refine exists_congr fun front => exists_congr fun dir => ?_
  rw [enter]
  cases disk.listingCause? dir <;> simp [eq_comm]

/-- Whether a root can be searched does not depend on the files that are looked for. -/
theorem exists_collectRoot_iff {root : String} :
    (∃ files, collectRoot disk search root = .ok files) ↔ Searchable disk search.ignored root := by
  constructor
  · rintro ⟨files, collected⟩
    obtain ⟨place, inner, usable, resolved, inside, listedEq⟩ := collectRoot_eq_ok collected
    exact ⟨usable, place, inner, Disk.entry_eq_ok_iff.mpr ⟨resolved, inside⟩,
      exists_listed_iff.mp ⟨files, listedEq⟩⟩
  · rintro ⟨usable, place, inner, found, permitted⟩
    obtain ⟨files, listedEq⟩ := exists_listed_iff.mpr permitted
    exact ⟨files, by simpa only [collectRoot, if_pos usable, found] using listedEq⟩

theorem collectRoot_eq_error_iff {root : String} {failure : Failure} :
    collectRoot disk search root = .error failure ↔ Blocked disk search.ignored root failure := by
  constructor
  · intro failed
    rw [collectRoot] at failed
    split at failed
    · rename_i place inner found
      split at found
      · rename_i usable
        obtain ⟨front, dir, cause, first, why, rfl⟩ := listed_eq_error_iff.mp failed
        exact .refused usable found first why
      · cases found
    · rename_i place entry found
      split at found
      · rename_i usable
        cases failed
        refine .leaf ?_ ?_
        · simp [Disk.leadsSomewhere, usable, found, Except.isOk, Except.toBool]
        · simp only [Disk.isDirectory, found]
          split <;> simp_all
      · cases found
    · rename_i cause found
      cases failed
      refine .missing ?_
      split at found
      · simp [Disk.leadsSomewhere, found, Except.isOk, Except.toBool]
      · rename_i unusable
        simp [Disk.leadsSomewhere, unusable]
  · intro blocked
    cases blocked with
    | missing nowhere =>
        rw [collectRoot]
        by_cases usable : Disk.isUsable root = true
        · cases found : disk.entry root with
          | ok entry => simp [Disk.leadsSomewhere, usable, found, Except.isOk, Except.toBool] at nowhere
          | error cause => rw [if_pos usable]
        · rw [if_neg usable]
    | leaf somewhere leaf =>
        rw [Disk.leadsSomewhere, Bool.and_eq_true] at somewhere
        rw [Disk.isDirectory, somewhere.1, Bool.true_and] at leaf
        rw [collectRoot, if_pos somewhere.1]
        split at leaf
        · cases leaf
        · rename_i other
          cases found : disk.entry root with
          | error cause => simp [found, Except.isOk, Except.toBool] at somewhere
          | ok entry =>
              obtain ⟨place, entry⟩ := entry
              cases entry with
              | folder inner => exact absurd found (other place inner)
              | _ => rfl
    | refused usable found first why =>
        rw [collectRoot, if_pos usable, found]
        exact listed_eq_error_iff.mpr ⟨_, _, _, first, why, rfl⟩

/-! ## Below all roots -/

theorem collect_eq_mapM (disk : Disk) (search : Search) (roots : List String) :
    collect disk search roots = List.flatten <$> roots.mapM (collectRoot disk search) := by
  induction roots with
  | nil => rfl
  | cons root rest ih =>
      simp only [collect, ih, List.mapM_cons]
      cases collectRoot disk search root <;> cases rest.mapM (collectRoot disk search) <;> rfl

/-- A search succeeds exactly if every root can be searched. -/
theorem exists_collect_iff {roots : List String} :
    (∃ files, collect disk search roots = .ok files) ↔
      ∀ root ∈ roots, Searchable disk search.ignored root := by
  rw [collect_eq_mapM, Except.exists_map_iff, Pool.exists_mapM_iff]
  simp only [exists_collectRoot_iff]

/-- A search fails at the first root that does not let itself be searched. -/
theorem collect_eq_error_iff {roots : List String} {failure : Failure} :
    collect disk search roots = .error failure ↔
      ∃ front root, IsFirst (fun root => ¬ Searchable disk search.ignored root) roots front root ∧
        Blocked disk search.ignored root failure := by
  rw [collect_eq_mapM, Except.map_eq_error_iff,
    Pool.mapM_eq_error_iff fun root => not_congr exists_collectRoot_iff.symm]
  simp only [collectRoot_eq_error_iff]

/-! ## The paths that are found -/

/-- Every name can be part of a path. -/
def Legible (d : Directory) : Prop :=
  d.Every fun name _ => Disk.isUsable name = true

instance (d : Directory) : Decidable (Legible d) :=
  inferInstanceAs (Decidable (d.Every _))

/-- A disk as file systems have it: its directories are in order, and no name holds U+0000. -/
structure WellFormed (disk : Disk) : Prop extends disk.Orderly where
  legible : Legible disk.root

theorem isUsable_iff {text : String} : Disk.isUsable text = true ↔ '\x00' ∉ text.toList := by
  simp [Disk.isUsable]

theorem isUsable_join {base name : String} (baseUsable : Disk.isUsable base = true)
    (nameUsable : Disk.isUsable name = true) : Disk.isUsable (Path.join base name) = true := by
  rw [isUsable_iff] at baseUsable nameUsable ⊢
  rw [Path.join]
  split
  · exact nameUsable
  split
  · simp [baseUsable, nameUsable]
  · simp [baseUsable, nameUsable]

theorem exists_below_of_listed {found : Found} {files : List String}
    (listedEq : listed disk path found = .ok files) :
    ∃ below, found.below = .ok below ∧ files = found.files ++ below := by
  rw [listed] at listedEq
  split at listedEq
  · cases listedEq
  · cases belowEq : found.below with
    | ok below =>
        rw [belowEq] at listedEq
        exact ⟨below, rfl, (Except.ok.inj listedEq).symm⟩
    | error failure =>
        rw [belowEq] at listedEq
        cases listedEq

/-- Where every name can be part of a path, the paths of the files that are found can be used. -/
theorem isUsable_of_gather (disk : Disk) (search : Search) (usable : Disk.isUsable path = true)
    (legible : Legible d) :
    (∀ file ∈ (gather disk search path d).files, Disk.isUsable file = true) ∧
      ∀ files, (gather disk search path d).below = .ok files → ∀ file ∈ files,
        Disk.isUsable file = true := by
  induction d generalizing path with
  | empty =>
      refine ⟨fun _ mem => absurd mem List.not_mem_nil, ?_⟩
      rintro _ ⟨⟩ _ mem
      exact absurd mem List.not_mem_nil
  | file name contents rest ih =>
      obtain ⟨files, below⟩ := ih usable legible.2
      rw [gather]
      split
      · exact ⟨List.forall_mem_cons.mpr ⟨isUsable_join usable legible.1, files⟩, below⟩
      · exact ⟨files, below⟩
  | link name target rest ih =>
      obtain ⟨files, below⟩ := ih usable legible.2
      rw [gather]
      split
      · exact ⟨List.forall_mem_cons.mpr ⟨isUsable_join usable legible.1, files⟩, below⟩
      · exact ⟨files, below⟩
  | folder name inner rest ihInner ih =>
      obtain ⟨nameUsable, innerLegible, restLegible⟩ := legible
      obtain ⟨files, below⟩ := ih usable restLegible
      obtain ⟨innerFiles, innerBelow⟩ := ihInner (isUsable_join usable nameUsable) innerLegible
      rw [gather]
      split
      · exact ⟨files, below⟩
      refine ⟨files, fun all allEq => ?_⟩
      obtain ⟨entered, enteredEq, allEq⟩ := Except.bind_eq_ok_iff.mp allEq
      obtain ⟨others, othersEq, allEq⟩ := Except.bind_eq_ok_iff.mp allEq
      cases allEq
      obtain ⟨deeper, deeperEq, rfl⟩ := exists_below_of_listed enteredEq
      exact List.forall_mem_append.mpr ⟨List.forall_mem_append.mpr
        ⟨innerFiles, innerBelow deeper deeperEq⟩, below others othersEq⟩

theorem isUsable_of_collectRoot (legible : Legible disk.root) {root : String} {files : List String}
    (collected : collectRoot disk search root = .ok files) :
    ∀ file ∈ files, Disk.isUsable file = true := by
  obtain ⟨place, inner, usable, _, inside, listedEq⟩ := collectRoot_eq_ok collected
  obtain ⟨here, below⟩ :=
    isUsable_of_gather disk search usable (Directory.every_of_at? legible inside)
  obtain ⟨deeper, deeperEq, rfl⟩ := exists_below_of_listed listedEq
  exact List.forall_mem_append.mpr ⟨here, below deeper deeperEq⟩

theorem isUsable_of_collect (legible : Legible disk.root) {roots files : List String}
    (collected : collect disk search roots = .ok files) :
    ∀ file ∈ files, Disk.isUsable file = true := by
  induction roots generalizing files with
  | nil =>
      cases collected
      exact fun _ mem => absurd mem List.not_mem_nil
  | cons root rest ih =>
      obtain ⟨first, others, firstEq, othersEq, rfl⟩ := collect_cons_eq_ok_iff.mp collected
      exact List.forall_mem_append.mpr ⟨isUsable_of_collectRoot legible firstEq, ih othersEq⟩

end StringAudit.Collection
