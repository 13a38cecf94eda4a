import StringAudit.Disk.Basic

/-!
# Looking at places

`look` shows what stands at a place, and of a directory only that it is one.  It is the view in which
an operation on the disk is one change at one place: putting an entry changes what stands at its own
place and nowhere else, and so does removing one.
-/

namespace StringAudit

/-- What stands at a place, without the entries of a directory. -/
inductive Leaf
  | file (contents : File)
  | link (target : String)
  | folder
  deriving DecidableEq, Repr

/-- An entry without what it holds, if it is a directory. -/
def Entry.leaf : Entry → Leaf
  | .file contents => .file contents
  | .link target => .link target
  | .folder _ => .folder

@[simp]
theorem Entry.leaf_eq_folder_iff (entry : Entry) :
    entry.leaf = .folder ↔ ∃ inner, entry = .folder inner := by
  cases entry <;> simp [leaf]

namespace Directory

/-! ## Names in a directory -/

theorem lookup_cons_eq (name : String) (entry : String × Entry) (rest : List (String × Entry)) :
    (entry :: rest).lookup name = if name = entry.1 then some entry.2 else rest.lookup name := by
  rw [List.lookup_cons]
  by_cases same : name = entry.1
  · simp [same]
  · simp [same, beq_false_of_ne same]

theorem lookup_insertEntry (name other : String) (entry : Entry) (entries : List (String × Entry)) :
    (insertEntry name entry entries).lookup other =
      if other = name then some entry else entries.lookup other := by
  induction entries with
  | nil => rw [insertEntry, lookup_cons_eq]
  | cons older rest ih =>
      rw [insertEntry]
      split
      · rw [lookup_cons_eq]
      · split
        · rename_i equal
          rw [lookup_cons_eq, lookup_cons_eq, equal]
          split <;> rfl
        · rename_i unequal
          rw [lookup_cons_eq, ih, lookup_cons_eq]
          by_cases same : other = name
          · subst other
            rw [if_neg unequal, if_pos rfl, if_pos rfl]
          · rw [if_neg same, if_neg same]

theorem lookup_filter_ne (name other : String) (entries : List (String × Entry)) :
    (entries.filter (·.1 ≠ name)).lookup other =
      if other = name then none else entries.lookup other := by
  induction entries with
  | nil => simp
  | cons older rest ih =>
      by_cases gone : older.1 = name
      · rw [List.filter_cons_of_neg (by simp [gone]), ih, lookup_cons_eq, gone]
        split <;> rfl
      · rw [List.filter_cons_of_pos (by simp [gone]), lookup_cons_eq, lookup_cons_eq, ih]
        by_cases same : other = name
        · rw [if_pos same, if_pos same, if_neg (same ▸ Ne.symm gone)]
        · rw [if_neg same, if_neg same]

theorem find?_insert (d : Directory) (name other : String) (entry : Entry) :
    (d.insert name entry).find? other = if other = name then some entry else d.find? other := by
  rw [find?, insert, toList_ofList, lookup_insertEntry, find?]

theorem find?_erase (d : Directory) (name other : String) :
    (d.erase name).find? other = if other = name then none else d.find? other := by
  rw [find?, erase, toList_ofList, lookup_filter_ne, find?]

/-! ## Places below a directory -/

/-- What stands at a place below a directory. -/
def look (d : Directory) (place : Place) : Option Leaf :=
  (d.at? place).map Entry.leaf

/-- Looking goes on below directories only. -/
theorem look_cons (d : Directory) (name : String) (rest : Place) :
    d.look (name :: rest) =
      match d.find? name with
      | some (.folder inner) => inner.look rest
      | some entry => if rest = [] then some entry.leaf else none
      | none => none := by
  rw [look, at?]
  cases d.find? name with
  | none => rfl
  | some entry =>
      cases entry with
      | folder inner => rfl
      | file contents => by_cases last : rest = [] <;> simp [last]
      | link target => by_cases last : rest = [] <;> simp [last]

/-- Nothing stands below a name that is no directory. -/
theorem look_cons_of_leaf {d : Directory} {name : String}
    (leaf : ∀ inner, d.find? name ≠ some (.folder inner)) (rest : Place) :
    d.look (name :: rest) = if rest = [] then (d.find? name).map Entry.leaf else none := by
  rw [look_cons]
  cases entryEq : d.find? name with
  | none => simp
  | some entry =>
      cases entry with
      | folder inner => exact absurd entryEq (leaf inner)
      | file contents => rfl
      | link target => rfl

theorem look_cons_eq_folder_iff (d : Directory) (name : String) (rest : Place) :
    d.look (name :: rest) = some .folder ↔
      ∃ inner, d.find? name = some (.folder inner) ∧ inner.look rest = some .folder := by
  rw [look_cons]
  cases d.find? name with
  | none => simp
  | some entry =>
      cases entry with
      | folder inner => simp
      | file contents => by_cases last : rest = [] <;> simp [last, Entry.leaf]
      | link target => by_cases last : rest = [] <;> simp [last, Entry.leaf]

theorem look_eq_folder_iff (d : Directory) (place : Place) :
    d.look place = some .folder ↔ ∃ inner, d.at? place = some (.folder inner) := by
  rw [look, Option.map_eq_some_iff]
  simp only [Entry.leaf_eq_folder_iff]
  constructor
  · rintro ⟨_, found, inner, rfl⟩
    exact ⟨inner, found⟩
  · rintro ⟨inner, found⟩
    exact ⟨_, found, inner, rfl⟩

/-- What stands below a directory at a place is found by looking from there. -/
theorem at?_append {d inner : Directory} {place : Place} (found : d.at? place = some (.folder inner))
    (rest : Place) : d.at? (place ++ rest) = inner.at? rest := by
  induction place generalizing d with
  | nil =>
      rw [at?, Option.some.injEq, Entry.folder.injEq] at found
      rw [List.nil_append, found]
  | cons name names ih =>
      obtain ⟨next, entryEq, _⟩ :=
        (look_cons_eq_folder_iff d name names).mp ((look_eq_folder_iff d _).mpr ⟨inner, found⟩)
      rw [at?, entryEq] at found
      rw [List.cons_append, at?, entryEq]
      exact ih found

theorem look_append {d inner : Directory} {place : Place} (found : d.at? place = some (.folder inner))
    (rest : Place) : d.look (place ++ rest) = inner.look rest := by
  rw [look, at?_append found, look]

/-- What stands at a name in a directory at a place. -/
theorem look_append_singleton {d inner : Directory} {place : Place}
    (found : d.at? place = some (.folder inner)) (name : String) :
    d.look (place ++ [name]) = (inner.find? name).map Entry.leaf := by
  rw [look, at?_append found, at?]
  cases inner.find? name with
  | none => rfl
  | some entry => cases entry <;> rfl

/-- Something stands below a place only if a directory stands there. -/
theorem look_folder_of_append {d : Directory} {place rest : Place} (deeper : rest ≠ [])
    (there : d.look (place ++ rest) ≠ none) : d.look place = some .folder := by
  induction place generalizing d with
  | nil => rfl
  | cons name names ih =>
      rw [List.cons_append, look_cons] at there
      rw [look_cons]
      cases entryEq : d.find? name with
      | none => simp [entryEq] at there
      | some entry =>
          rw [entryEq] at there
          cases entry with
          | folder inner => exact ih there
          | file contents => simp [deeper] at there
          | link target => simp [deeper] at there

/-- A change of the directory at a place that changes what stands under one name, where no directory
comes or goes, changes what stands at that one place. -/
theorem look_modify {d : Directory} {place : Place} {change : Directory → Directory} {name : String}
    (new : Option Entry) (there : d.look place = some .folder)
    (changed : ∀ (inner : Directory) (other : String),
      (change inner).find? other = if other = name then new else inner.find? other)
    (newLeaf : ∀ inner, new ≠ some (.folder inner))
    (oldLeaf : d.look (place ++ [name]) ≠ some .folder) (other : Place) :
    (d.modify place change).look other =
      if other = place ++ [name] then new.map Entry.leaf else d.look other := by
  induction place generalizing d other with
  | nil =>
      rw [modify, List.nil_append]
      cases other with
      | nil => rfl
      | cons first rest =>
          by_cases same : first = name
          · subst first
            have oldEntry : ∀ inner, d.find? name ≠ some (.folder inner) := by
              intro inner entryEq
              rw [List.nil_append, look_cons, entryEq] at oldLeaf
              exact oldLeaf rfl
            have newEntry : (change d).find? name = new := by rw [changed, if_pos rfl]
            rw [look_cons_of_leaf (newEntry ▸ newLeaf), look_cons_of_leaf oldEntry, newEntry]
            by_cases last : rest = []
            · simp [last]
            · simp [last]
          · rw [look_cons, changed, if_neg same, look_cons, if_neg (by simp [same])]
  | cons first names ih =>
      obtain ⟨inner, entryEq, thereInner⟩ := (look_cons_eq_folder_iff d first names).mp there
      have oldInner : inner.look (names ++ [name]) ≠ some .folder := by
        rwa [List.cons_append, look_cons, entryEq] at oldLeaf
      rw [modify, entryEq]
      cases other with
      | nil => rfl
      | cons head rest =>
          rw [look_cons, find?_insert, List.cons_append, look_cons]
          by_cases same : head = first
          · subst head
            rw [if_pos rfl, entryEq]
            simpa using ih thereInner oldInner rest
          · simp [same]

end Directory

namespace Disk

/-- What stands at a place of a disk. -/
def look (disk : Disk) (place : Place) : Option Leaf :=
  disk.root.look place

/-- On two disks the same stands at every place, and they refuse the same. -/
structure Agrees (disk other : Disk) : Prop where
  look_eq : ∀ place, disk.look place = other.look place
  here_eq : disk.here = other.here
  refusals_eq : disk.refusals = other.refusals

theorem Agrees.refl (disk : Disk) : disk.Agrees disk :=
  ⟨fun _ => rfl, rfl, rfl⟩

/-- Directories stand in directories. -/
theorem look_dropLast {disk : Disk} {place : Place} (there : disk.look place = some .folder) :
    disk.look place.dropLast = some .folder := by
  by_cases top : place = []
  · subst top
    exact there
  · have whole : disk.root.look (place.dropLast ++ [place.getLast top]) ≠ none := by
      rw [List.dropLast_concat_getLast, show disk.root.look place = some .folder from there]
      exact Option.some_ne_none _
    exact Directory.look_folder_of_append (List.cons_ne_nil _ _) whole

/-- Putting an entry that is no directory where none stands changes that one place. -/
theorem look_put {disk : Disk} {place : Place} {name : String} {entry : Entry}
    (there : disk.look place = some .folder) (oldLeaf : disk.look (place ++ [name]) ≠ some .folder)
    (newLeaf : entry.leaf ≠ .folder) (other : Place) :
    (disk.put place name entry).look other =
      if other = place ++ [name] then some entry.leaf else disk.look other := by
  refine Directory.look_modify (some entry) there
    (fun inner other => Directory.find?_insert inner name other entry) ?_ oldLeaf other
  rintro inner same
  rw [Option.some.injEq] at same
  exact newLeaf ((Entry.leaf_eq_folder_iff entry).mpr ⟨inner, same⟩)

/-- Removing an entry that is no directory changes that one place. -/
theorem look_remove {disk : Disk} {place : Place} {name : String}
    (there : disk.look place = some .folder) (oldLeaf : disk.look (place ++ [name]) ≠ some .folder)
    (other : Place) :
    (disk.remove place name).look other =
      if other = place ++ [name] then none else disk.look other :=
  Directory.look_modify none there
    (fun inner other => Directory.find?_erase inner name other) (fun _ => by simp) oldLeaf other

end Disk

end StringAudit
