import StringAudit.Proofs.Collection.Traversal

/-!
# The ways of a search

A way is a chain of names that leads down from a directory through directories in it.  A search explores
the directory at the end of each way without an ignored name, and it finds files in it by name.
Directories come in the order of their ways: each before those below it, and neighbours by name.
-/

namespace StringAudit

namespace Directory

variable {name head : String} {entry : Entry} {rest inner sub : Directory} {tail : Place}

/-! ## What stands at the end of a way -/

theorem at?_singleton (d : Directory) (name : String) : d.at? [name] = d.find? name := by
  rw [at?]
  cases d.find? name with
  | none => rfl
  | some entry => cases entry <;> rfl

theorem at?_cons_of_ne (different : head ≠ name) (entry : Entry) (rest : Directory) (tail : Place) :
    (cons name entry rest).at? (head :: tail) = rest.at? (head :: tail) := by
  rw [at?, find?_cons, if_neg different, at?]

theorem at?_cons_folder (name : String) (inner rest : Directory) (tail : Place) :
    (cons name (.folder inner) rest).at? (name :: tail) = inner.at? tail := by
  rw [at?, find?_cons, if_pos rfl]

theorem at?_eq_none_of_precedes (ahead : Precedes name rest.names) (tail : Place) :
    rest.at? (name :: tail) = none := by
  rw [at?, find?_eq_none_of_precedes ahead (String.lt_irrefl name)]

/-- An entry that is no directory leads to none. -/
theorem at?_cons_eq_folder_iff (entry : Entry) (leaf : ∀ d, entry ≠ .folder d)
    (ahead : Precedes name rest.names) :
    (cons name entry rest).at? (head :: tail) = some (.folder sub) ↔
      rest.at? (head :: tail) = some (.folder sub) := by
  by_cases same : head = name
  · subst head
    rw [at?_eq_none_of_precedes ahead, at?, find?_cons, if_pos rfl]
    cases entry with
    | folder inner => exact absurd rfl (leaf inner)
    | file contents => by_cases last : tail = [] <;> simp [last]
    | link target => by_cases last : tail = [] <;> simp [last]
  · rw [at?_cons_of_ne same]

/-- What stands at the end of a way under a name is what the directory there has under it. -/
theorem at?_concat_eq_some_iff {d : Directory} {way : Place} :
    d.at? (way ++ [name]) = some entry ↔
      ∃ sub, d.at? way = some (.folder sub) ∧ sub.find? name = some entry := by
  constructor
  · intro found
    have there : d.look (way ++ [name]) ≠ none := by simp [look, found]
    obtain ⟨sub, subEq⟩ :=
      (look_eq_folder_iff d way).mp (look_folder_of_append (List.cons_ne_nil name []) there)
    rw [at?_append subEq, at?_singleton] at found
    exact ⟨sub, subEq, found⟩
  · rintro ⟨sub, subEq, found⟩
    rw [at?_append subEq, at?_singleton, found]

/-- Names that are ascending stand for one entry each. -/
theorem mem_toList_iff {d : Directory} (ascending : d.Ascending) :
    (name, entry) ∈ d.toList ↔ d.find? name = some entry := by
  refine ⟨fun mem => ?_, mem_of_find?⟩
  induction d using consInduction with
  | empty => exact absurd mem List.not_mem_nil
  | cons first firstEntry rest _ ih =>
      obtain ⟨ahead, -, restAscending⟩ := every_cons.mp ascending
      rw [toList_cons] at mem
      rw [find?_cons]
      rcases List.mem_cons.mp mem with same | later
      · cases same
        exact if_pos rfl
      · have different : name ≠ first := by
          rintro rfl
          exact String.lt_irrefl name (ahead name (List.mem_map_of_mem later))
        rw [if_neg different]
        exact ih restAscending later

end Directory

namespace Collection

open Directory

variable {disk : Disk} {search : Search} {ignored : List String} {path : String} {d : Directory}

/-! ## The directories that are explored -/

/-- The directories that a search enters below a directory, with the ways to them. -/
def entered (ignored : List String) : Directory → List (Place × Directory)
  | .empty => []
  | .file _ _ rest => entered ignored rest
  | .link _ _ rest => entered ignored rest
  | .folder name inner rest =>
      (if ignored.contains name then []
        else (([], inner) :: entered ignored inner).map fun sub => (name :: sub.1, sub.2)) ++
      entered ignored rest

/-- A directory and those that a search enters below it, in the order in which it lists them. -/
def explored (ignored : List String) (d : Directory) : List (Place × Directory) :=
  ([], d) :: entered ignored d

theorem visits_eq (ignored : List String) (path : String) (d : Directory) :
    visits ignored path d = (entered ignored d).map fun sub => Path.below path sub.1 := by
  induction d generalizing path with
  | empty => rfl
  | file _ _ rest ih => exact ih path
  | link _ _ rest ih => exact ih path
  | folder name inner rest ihInner ih =>
      rw [visits, entered, List.map_append, ih]
      split
      · rfl
      · rw [List.map_map, List.map_cons, ihInner]
        rfl

theorem cons_visits_eq (ignored : List String) (path : String) (d : Directory) :
    path :: visits ignored path d = (explored ignored d).map fun sub => Path.below path sub.1 := by
  rw [visits_eq]
  rfl

/-- A directory that is entered is reached by a name of the directory that it is below. -/
theorem exists_name_of_mem_entered {sub : Place × Directory} (mem : sub ∈ entered ignored d) :
    ∃ name tail, sub.1 = name :: tail ∧ name ∈ d.names := by
  induction d generalizing sub with
  | empty => exact absurd mem List.not_mem_nil
  | file name _ rest ih =>
      obtain ⟨other, tail, way, later⟩ := ih mem
      exact ⟨other, tail, way, List.mem_cons_of_mem name later⟩
  | link name _ rest ih =>
      obtain ⟨other, tail, way, later⟩ := ih mem
      exact ⟨other, tail, way, List.mem_cons_of_mem name later⟩
  | folder name inner rest _ ih =>
      rcases List.mem_append.mp mem with here | later
      · split at here
        · exact absurd here List.not_mem_nil
        · obtain ⟨deep, -, rfl⟩ := List.mem_map.mp here
          exact ⟨name, deep.1, rfl, List.mem_cons_self⟩
      · obtain ⟨other, tail, way, later⟩ := ih later
        exact ⟨other, tail, way, List.mem_cons_of_mem name later⟩

theorem ne_nil_of_mem_entered {sub : Directory} : ([], sub) ∉ entered ignored d := by
  intro mem
  obtain ⟨_, _, way, -⟩ := exists_name_of_mem_entered mem
  cases way

/-- The directories come in the order of their ways. -/
theorem pairwise_entered (ascending : d.Ascending) :
    (entered ignored d).Pairwise fun sub other => sub.1 < other.1 := by
  induction d with
  | empty => exact List.Pairwise.nil
  | file _ _ rest ih => exact ih ascending.2
  | link _ _ rest ih => exact ih ascending.2
  | folder name inner rest ihInner ih =>
      obtain ⟨ahead, innerAscending, restAscending⟩ := ascending
      rw [entered, List.pairwise_append]
      refine ⟨?_, ih restAscending, ?_⟩
      · split
        · exact List.Pairwise.nil
        · rw [List.pairwise_map, List.pairwise_cons]
          refine ⟨fun deep mem => ?_, ?_⟩
          · obtain ⟨head, tail, way, -⟩ := exists_name_of_mem_entered mem
            rw [List.cons_lt_cons_self, way]
            exact List.nil_lt_cons head tail
          · simpa only [List.cons_lt_cons_self] using ihInner innerAscending
      · intro first here second later
        split at here
        · exact absurd here List.not_mem_nil
        · obtain ⟨deep, -, rfl⟩ := List.mem_map.mp here
          obtain ⟨other, tail, way, mem⟩ := exists_name_of_mem_entered later
          rw [way, List.cons_lt_cons_iff]
          exact Or.inl (ahead other mem)

theorem pairwise_explored (ascending : d.Ascending) :
    (explored ignored d).Pairwise fun sub other => sub.1 < other.1 := by
  refine List.pairwise_cons.mpr ⟨fun sub mem => ?_, pairwise_entered ascending⟩
  obtain ⟨name, tail, way, -⟩ := exists_name_of_mem_entered mem
  rw [way]
  exact List.nil_lt_cons name tail

/-- A search enters the directories at the end of ways that pass no ignored name. -/
theorem mem_entered_iff (ascending : d.Ascending) {head : String} {tail : Place} {sub : Directory} :
    (head :: tail, sub) ∈ entered ignored d ↔
      d.at? (head :: tail) = some (.folder sub) ∧ ∀ name ∈ head :: tail, name ∉ ignored := by
  induction d generalizing head tail with
  | empty => simp [entered, at?, find?, toList]
  | file name contents rest ih =>
      rw [entered, ih ascending.2]
      exact and_congr_left fun _ =>
        (at?_cons_eq_folder_iff (.file contents) (fun _ => Entry.noConfusion) ascending.1).symm
  | link name target rest ih =>
      rw [entered, ih ascending.2]
      exact and_congr_left fun _ =>
        (at?_cons_eq_folder_iff (.link target) (fun _ => Entry.noConfusion) ascending.1).symm
  | folder name inner rest ihInner ih =>
      obtain ⟨ahead, innerAscending, restAscending⟩ := ascending
      rw [entered, List.mem_append, ih restAscending]
      by_cases same : head = name
      · subst head
        have inside : (tail, sub) ∈ ([], inner) :: entered ignored inner ↔
            inner.at? tail = some (.folder sub) ∧ ∀ other ∈ tail, other ∉ ignored := by
          cases tail with
          | nil => simp [at?, eq_comm, ne_nil_of_mem_entered]
          | cons next rest => simp [ihInner innerAscending]
        rw [at?_eq_none_of_precedes ahead, show (folder name inner rest).at? (name :: tail) = inner.at? tail
          from at?_cons_folder name inner rest tail, List.forall_mem_cons]
        by_cases known : name ∈ ignored
        · simp [known]
        · simpa [known] using inside
      · have elsewhere : (folder name inner rest).at? (head :: tail) = rest.at? (head :: tail) :=
          at?_cons_of_ne same (.folder inner) rest tail
        rw [elsewhere, or_iff_right]
        split
        · exact List.not_mem_nil
        · rintro mem
          obtain ⟨deep, -, way⟩ := List.mem_map.mp mem
          exact same (List.cons.inj (Prod.mk.inj way).1).1.symm

/-- A search explores the directories at the end of ways that pass no ignored name. -/
theorem mem_explored_iff (ascending : d.Ascending) {way : Place} {sub : Directory} :
    (way, sub) ∈ explored ignored d ↔
      d.at? way = some (.folder sub) ∧ ∀ name ∈ way, name ∉ ignored := by
  cases way with
  | nil => simp [explored, at?, eq_comm, ne_nil_of_mem_entered]
  | cons head tail => simp [explored, mem_entered_iff ascending]

/-! ## The files that are found -/

/-- Whether a search takes what stands at a path for a file: a file, or a link that does not lead to a
directory. -/
def takes (disk : Disk) (path : String) : Entry → Bool
  | .file _ => true
  | .link _ => !disk.isDirectory path
  | .folder _ => false

@[simp]
theorem takes_file (disk : Disk) (path : String) (contents : File) :
    takes disk path (.file contents) = true :=
  rfl

@[simp]
theorem takes_link (disk : Disk) (path target : String) :
    takes disk path (.link target) = !disk.isDirectory path :=
  rfl

@[simp]
theorem takes_folder (disk : Disk) (path : String) (inner : Directory) :
    takes disk path (.folder inner) = false :=
  rfl

/-- Whether a search looks for an entry of the directory at a path. -/
def looksFor (disk : Disk) (search : Search) (path : String) (entry : String × Entry) : Bool :=
  search.matches entry.1 && takes disk (Path.join path entry.1) entry.2

/-- The names of the files that a search looks for in a directory. -/
def sought (disk : Disk) (search : Search) (path : String) (d : Directory) : List String :=
  (d.toList.filter (looksFor disk search path)).map (·.1)

theorem sought_cons (disk : Disk) (search : Search) (path name : String) (entry : Entry)
    (rest : Directory) :
    sought disk search path (cons name entry rest) =
      if looksFor disk search path (name, entry) then name :: sought disk search path rest
      else sought disk search path rest := by
  rw [sought, toList_cons, List.filter_cons]
  split <;> rfl

theorem files_gather (disk : Disk) (search : Search) (path : String) (d : Directory) :
    (gather disk search path d).files = (sought disk search path d).map (Path.join path) := by
  induction d with
  | empty => rfl
  | file name contents rest ih =>
      have looks : looksFor disk search path (name, .file contents) = search.matches name :=
        Bool.and_true _
      rw [gather, ← cons, sought_cons, looks]
      split <;> simp [ih]
  | link name target rest ih =>
      have looks : looksFor disk search path (name, .link target) =
          (search.matches name && !disk.isDirectory (Path.join path name)) := rfl
      rw [gather, ← cons, sought_cons, looks]
      split <;> simp [ih]
  | folder name inner rest _ ih =>
      have looks : looksFor disk search path (name, .folder inner) = false := Bool.and_false _
      rw [gather, ← cons, sought_cons, looks, if_neg Bool.false_ne_true, ← ih]
      split <;> rfl

/-- A file below a directory: the way to the directory that holds it, and its name there. -/
structure Find where
  way : Place
  name : String
  deriving DecidableEq, Repr

namespace Find

/-- The names that lead to a file. -/
def chain (find : Find) : Place :=
  find.way ++ [find.name]

/-- The order of a search: directories in the order of their ways, and files by name in each of them. -/
def Before (find other : Find) : Prop :=
  find.way < other.way ∨ find.way = other.way ∧ find.name < other.name

instance (find other : Find) : Decidable (find.Before other) :=
  inferInstanceAs (Decidable (_ ∨ _ ∧ _))

theorem Before.asymm {find other : Find} (before : find.Before other) : ¬ other.Before find := by
  rintro (less | ⟨same, less⟩)
  · rcases before with earlier | ⟨same, -⟩
    · exact List.lt_asymm less earlier
    · exact List.lt_irrefl _ (same ▸ less)
  · rcases before with earlier | ⟨-, earlier⟩
    · exact List.lt_irrefl _ (same ▸ earlier)
    · exact String.lt_asymm less earlier

/-- Files in the order of a search are determined by which they are. -/
theorem eq_of_pairwise {finds others : List Find} (ordered : finds.Pairwise Before)
    (othersOrdered : others.Pairwise Before) (same : ∀ find, find ∈ finds ↔ find ∈ others) :
    finds = others := by
  have distinct : ∀ {finds : List Find}, finds.Pairwise Before → finds.Nodup := by
    intro finds ordered
    refine ordered.imp ?_
    rintro find _ before rfl
    exact before.asymm before
  refine List.Perm.eq_of_pairwise (fun _ _ _ _ before after => absurd after before.asymm) ordered
    othersOrdered ?_
  exact (List.perm_ext_iff_of_nodup (distinct ordered) (distinct othersOrdered)).mpr same

/-- A file of a directory as one below the directory above. -/
def under (name : String) (find : Find) : Find :=
  ⟨name :: find.way, find.name⟩

end Find

/-- The files that a search finds in directories. -/
def finds (disk : Disk) (search : Search) (path : String) (dirs : List (Place × Directory)) : List Find :=
  dirs.flatMap fun sub => (sought disk search (Path.below path sub.1) sub.2).map (Find.mk sub.1)

theorem finds_under (disk : Disk) (search : Search) (path name : String)
    (dirs : List (Place × Directory)) :
    finds disk search path (dirs.map fun sub => (name :: sub.1, sub.2)) =
      (finds disk search (Path.join path name) dirs).map (Find.under name) := by
  simp only [finds, List.flatMap_map, List.map_flatMap, List.map_map]
  rfl

theorem finds_append (disk : Disk) (search : Search) (path : String)
    (dirs others : List (Place × Directory)) :
    finds disk search path (dirs ++ others) =
      finds disk search path dirs ++ finds disk search path others :=
  List.flatMap_append

theorem finds_cons (disk : Disk) (search : Search) (path : String) (sub : Place × Directory)
    (dirs : List (Place × Directory)) :
    finds disk search path (sub :: dirs) =
      (sought disk search (Path.below path sub.1) sub.2).map (Find.mk sub.1) ++
        finds disk search path dirs :=
  rfl

/-- What is found below a directory is found in the directories that are entered below it. -/
theorem eq_of_below {files : List String} (below : (gather disk search path d).below = .ok files) :
    files = (finds disk search path (entered search.ignored d)).map fun find =>
      Path.below path find.chain := by
  induction d generalizing path files with
  | empty =>
      cases below
      rfl
  | file name contents rest ih =>
      refine ih ?_
      rw [gather] at below
      split at below <;> exact below
  | link name target rest ih =>
      refine ih ?_
      rw [gather] at below
      split at below <;> exact below
  | folder name inner rest ihInner ih =>
      rw [gather] at below
      rw [entered]
      split at below
      · rename_i known
        rw [if_pos known]
        exact ih below
      · rename_i unknown
        obtain ⟨first, firstEq, below⟩ := Except.bind_eq_ok_iff.mp below
        obtain ⟨others, othersEq, below⟩ := Except.bind_eq_ok_iff.mp below
        cases below
        obtain ⟨deeper, deeperEq, rfl⟩ := exists_below_of_listed firstEq
        rw [if_neg unknown, finds_append, List.map_append, ← ih othersEq, finds_under, List.map_map,
          files_gather, ihInner deeperEq, finds_cons, List.map_append, List.map_map]
        rfl

/-- A search finds what stands in the directories that it explores, if all of them can be listed. -/
theorem listed_gather_eq_ok_iff {root : String} {inner : Directory} {files : List String} :
    listed disk root (gather disk search root inner) = .ok files ↔
      (∀ sub ∈ explored search.ignored inner, disk.listingCause? (Path.below root sub.1) = none) ∧
        files = (finds disk search root (explored search.ignored inner)).map fun find =>
          Path.below root find.chain := by
  have found : ∀ {files}, listed disk root (gather disk search root inner) = .ok files →
      files = (finds disk search root (explored search.ignored inner)).map fun find =>
        Path.below root find.chain := by
    intro files listedEq
    obtain ⟨deeper, deeperEq, rfl⟩ := exists_below_of_listed listedEq
    rw [files_gather, eq_of_below deeperEq, explored, finds_cons, List.map_append, List.map_map]
    rfl
  have permitted : (∃ files, listed disk root (gather disk search root inner) = .ok files) ↔
      ∀ sub ∈ explored search.ignored inner, disk.listingCause? (Path.below root sub.1) = none := by
    rw [exists_of_outcome_eq (outcome_listed_gather disk search root inner), Pool.exists_mapM_iff,
      cons_visits_eq]
    simp only [permitted_iff, List.forall_mem_map]
  constructor
  · intro listedEq
    exact ⟨permitted.mp ⟨files, listedEq⟩, found listedEq⟩
  · rintro ⟨all, rfl⟩
    obtain ⟨files, listedEq⟩ := permitted.mpr all
    rw [listedEq, found listedEq]

/-! ## Which files are found, and in which order -/

theorem mem_sought_iff (ascending : d.Ascending) {name : String} :
    name ∈ sought disk search path d ↔ search.matches name = true ∧
      ∃ entry, d.find? name = some entry ∧ takes disk (Path.join path name) entry = true := by
  simp only [sought, List.mem_map, List.mem_filter, looksFor, Bool.and_eq_true]
  constructor
  · rintro ⟨⟨_, entry⟩, ⟨mem, looked, taken⟩, rfl⟩
    exact ⟨looked, entry, (mem_toList_iff ascending).mp mem, taken⟩
  · rintro ⟨looked, entry, found, taken⟩
    exact ⟨(name, entry), ⟨mem_of_find? found, looked, taken⟩, rfl⟩

theorem pairwise_sought (ascending : d.Ascending) : (sought disk search path d).Pairwise (· < ·) :=
  List.pairwise_map.mpr ((ascending_iff.mp ascending).1.filter _)

/-- Files are found in the order of a search. -/
theorem pairwise_finds (ascending : d.Ascending) :
    (finds disk search path (explored ignored d)).Pairwise Find.Before := by
  rw [finds, List.pairwise_flatMap]
  constructor
  · intro sub mem
    have found := ((mem_explored_iff ascending).mp mem).1
    have subAscending : sub.2.Ascending := every_of_at? ascending found
    exact List.pairwise_map.mpr ((pairwise_sought subAscending).imp fun less => Or.inr ⟨rfl, less⟩)
  · refine (pairwise_explored ascending).imp fun less first firstMem second secondMem => ?_
    obtain ⟨_, -, rfl⟩ := List.mem_map.mp firstMem
    obtain ⟨_, -, rfl⟩ := List.mem_map.mp secondMem
    exact Or.inl less

/-- A search finds what it takes for a file with a name that it looks for, at the end of a way that passes
no ignored name. -/
theorem mem_finds_iff (ascending : d.Ascending) {find : Find} :
    find ∈ finds disk search path (explored ignored d) ↔
      (∀ name ∈ find.way, name ∉ ignored) ∧ search.matches find.name = true ∧
        ∃ entry, d.at? find.chain = some entry ∧
          takes disk (Path.below path find.chain) entry = true := by
  obtain ⟨way, name⟩ := find
  have inDirectory : ⟨way, name⟩ ∈ finds disk search path (explored ignored d) ↔
      ∃ sub, (way, sub) ∈ explored ignored d ∧ name ∈ sought disk search (Path.below path way) sub := by
    simp [finds, List.mem_flatMap]
  simp only [inDirectory, mem_explored_iff ascending, Find.chain, at?_concat_eq_some_iff,
    Path.below_concat]
  constructor
  · rintro ⟨sub, ⟨found, unknown⟩, mem⟩
    obtain ⟨looked, entry, entryEq, taken⟩ := (mem_sought_iff (every_of_at? ascending found)).mp mem
    exact ⟨unknown, looked, entry, ⟨sub, found, entryEq⟩, taken⟩
  · rintro ⟨unknown, looked, entry, ⟨sub, found, entryEq⟩, taken⟩
    exact ⟨sub, ⟨found, unknown⟩,
      (mem_sought_iff (every_of_at? ascending found)).mpr ⟨looked, entry, entryEq, taken⟩⟩

end Collection

end StringAudit
