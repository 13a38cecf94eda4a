import StringAudit.Proofs.Disk.Route

/-!
# Directories in order

The names in a directory are ascending, so that each occurs once, and each is a name that a path can
go by.  Both are properties of every entry at any depth.  Putting and removing entries keeps the names
ascending.
-/

namespace StringAudit

namespace Directory

/-- The names of the entries. -/
def names (d : Directory) : List String :=
  d.toList.map (·.1)

/-- At any depth, every name stands in a relation to the names behind it. -/
def Every (p : String → List String → Prop) : Directory → Prop
  | empty => True
  | file name _ rest => p name rest.names ∧ rest.Every p
  | link name _ rest => p name rest.names ∧ rest.Every p
  | folder name inner rest => p name rest.names ∧ inner.Every p ∧ rest.Every p

instance decidableEvery (p : String → List String → Prop) [∀ name later, Decidable (p name later)] :
    (d : Directory) → Decidable (d.Every p)
  | empty => isTrue trivial
  | file name _ rest =>
      have := decidableEvery p rest
      inferInstanceAs (Decidable (p name rest.names ∧ rest.Every p))
  | link name _ rest =>
      have := decidableEvery p rest
      inferInstanceAs (Decidable (p name rest.names ∧ rest.Every p))
  | folder name inner rest =>
      have := decidableEvery p inner
      have := decidableEvery p rest
      inferInstanceAs (Decidable (p name rest.names ∧ inner.Every p ∧ rest.Every p))

/-- A name that a path can go by. -/
def IsEntryName (name : String) : Prop :=
  name ≠ "" ∧ '/' ∉ name.toList ∧ Disk.IsStep name

instance (name : String) : Decidable (IsEntryName name) :=
  inferInstanceAs (Decidable (_ ∧ _ ∧ _ ∧ _ ∧ _))

/-- A name comes before all the names behind it. -/
def Precedes (name : String) (later : List String) : Prop :=
  ∀ other ∈ later, name < other

instance (name : String) (later : List String) : Decidable (Precedes name later) :=
  inferInstanceAs (Decidable (∀ other ∈ later, name < other))

/-- The names are ascending in every directory. -/
def Ascending (d : Directory) : Prop :=
  d.Every Precedes

/-- A path can go by every name. -/
def Named (d : Directory) : Prop :=
  d.Every fun name _ => IsEntryName name

instance (d : Directory) : Decidable d.Ascending :=
  inferInstanceAs (Decidable (d.Every _))

instance (d : Directory) : Decidable d.Named :=
  inferInstanceAs (Decidable (d.Every _))

end Directory

/-- A disk whose directories are in order: the names ascend, and a path can go by each of them. -/
structure Disk.Orderly (disk : Disk) : Prop where
  ascending : disk.root.Ascending
  named : disk.root.Named

/-- The same of a directory that an entry may be. -/
def Entry.Every (p : String → List String → Prop) : Entry → Prop
  | .folder inner => inner.Every p
  | _ => True

namespace Directory

variable {p : String → List String → Prop}

theorem every_cons {name : String} {entry : Entry} {rest : Directory} :
    (cons name entry rest).Every p ↔ p name rest.names ∧ entry.Every p ∧ rest.Every p := by
  cases entry <;> simp [cons, Every, Entry.Every]

theorem exists_cons {d : Directory} (nonempty : d ≠ empty) :
    ∃ name entry rest, d = cons name entry rest := by
  cases d with
  | empty => exact absurd rfl nonempty
  | file name contents rest => exact ⟨name, .file contents, rest, rfl⟩
  | link name target rest => exact ⟨name, .link target, rest, rfl⟩
  | folder name inner rest => exact ⟨name, .folder inner, rest, rfl⟩

/-- A directory is reached entry by entry. -/
theorem consInduction {motive : Directory → Prop} (empty : motive empty)
    (cons : ∀ name entry rest, (∀ inner, entry = .folder inner → motive inner) → motive rest →
      motive (cons name entry rest)) (d : Directory) : motive d := by
  induction d with
  | empty => exact empty
  | file name contents rest ih => exact cons name (.file contents) rest (fun _ same => by cases same) ih
  | link name target rest ih => exact cons name (.link target) rest (fun _ same => by cases same) ih
  | folder name inner rest ihInner ih =>
      exact cons name (.folder inner) rest (fun _ same => by cases same; exact ihInner) ih

/-! ## Below a directory -/

theorem find?_cons (name other : String) (entry : Entry) (rest : Directory) :
    (cons name entry rest).find? other = if other = name then some entry else rest.find? other := by
  rw [find?, toList_cons, lookup_cons_eq, find?]

theorem every_of_mem {d : Directory} (every : d.Every p) {name : String} {entry : Entry}
    (mem : (name, entry) ∈ d.toList) : entry.Every p := by
  rw [← ofList_toList d] at every
  generalize d.toList = entries at every mem
  induction entries with
  | nil => exact absurd mem List.not_mem_nil
  | cons first rest ih =>
      obtain ⟨_, firstEvery, restEvery⟩ := every_cons.mp every
      rcases List.mem_cons.mp mem with rfl | later
      · exact firstEvery
      · exact ih restEvery later

theorem mem_of_find? {d : Directory} {name : String} {entry : Entry}
    (found : d.find? name = some entry) : (name, entry) ∈ d.toList := by
  rw [find?] at found
  generalize d.toList = entries at found
  induction entries with
  | nil => cases found
  | cons first rest ih =>
      rw [lookup_cons_eq] at found
      split at found
      · rename_i same
        obtain rfl := Option.some.inj found
        rw [same]
        exact List.mem_cons_self
      · exact List.mem_cons_of_mem first (ih found)

theorem every_of_at? {d : Directory} {place : Place} {entry : Entry} (every : d.Every p)
    (found : d.at? place = some entry) : entry.Every p := by
  induction place generalizing d with
  | nil =>
      rw [at?, Option.some.injEq] at found
      exact found ▸ every
  | cons name rest ih =>
      rw [at?] at found
      split at found
      · rename_i inner entryEq
        have innerEvery : (Entry.folder inner).Every p := every_of_mem every (mem_of_find? entryEq)
        exact ih innerEvery found
      · rename_i other _ entryEq
        split at found
        · cases found
          exact every_of_mem every (mem_of_find? entryEq)
        · cases found
      · cases found

/-! ## Ascending names -/

theorem ascending_ofList_iff {entries : List (String × Entry)} :
    (ofList entries).Ascending ↔
      entries.Pairwise (fun a b => a.1 < b.1) ∧
        ∀ entry ∈ entries, entry.2.Every Precedes := by
  induction entries with
  | nil => simp [ofList, Ascending, Every]
  | cons first rest ih =>
      rw [Ascending] at ih
      rw [ofList, Ascending, every_cons, ih, List.pairwise_cons]
      simp only [Precedes, names, toList_ofList, List.mem_map, List.mem_cons]
      constructor
      · rintro ⟨ahead, firstAscending, ordered, restAscending⟩
        refine ⟨⟨fun other mem => ahead _ ⟨other, mem, rfl⟩, ordered⟩, ?_⟩
        rintro entry (rfl | mem)
        · exact firstAscending
        · exact restAscending entry mem
      · rintro ⟨⟨ahead, ordered⟩, ascending⟩
        refine ⟨?_, ascending first (Or.inl rfl), ordered, fun entry mem => ascending entry (Or.inr mem)⟩
        rintro _ ⟨other, mem, rfl⟩
        exact ahead other mem

theorem ascending_iff {d : Directory} :
    d.Ascending ↔
      d.toList.Pairwise (fun a b => a.1 < b.1) ∧
        ∀ entry ∈ d.toList, entry.2.Every Precedes := by
  rw [← ascending_ofList_iff, ofList_toList]

theorem mem_insertEntry {name : String} {entry : Entry} {entries : List (String × Entry)}
    {other : String × Entry} (mem : other ∈ insertEntry name entry entries) :
    other = (name, entry) ∨ other ∈ entries := by
  induction entries with
  | nil => exact Or.inl (List.mem_singleton.mp mem)
  | cons older rest ih =>
      rw [insertEntry] at mem
      split at mem
      · exact List.mem_cons.mp mem
      split at mem
      · rcases List.mem_cons.mp mem with rfl | later
        · exact Or.inl rfl
        · exact Or.inr (List.mem_cons_of_mem older later)
      · rcases List.mem_cons.mp mem with rfl | later
        · exact Or.inr List.mem_cons_self
        · exact (ih later).imp_right (List.mem_cons_of_mem older)

theorem pairwise_insertEntry {name : String} {entry : Entry} {entries : List (String × Entry)}
    (ordered : entries.Pairwise fun a b => a.1 < b.1) :
    (insertEntry name entry entries).Pairwise fun a b => a.1 < b.1 := by
  induction entries with
  | nil => exact List.pairwise_singleton _ _
  | cons older rest ih =>
      obtain ⟨ahead, restOrdered⟩ := List.pairwise_cons.mp ordered
      rw [insertEntry]
      split
      · rename_i before
        refine List.pairwise_cons.mpr ⟨?_, ordered⟩
        intro other mem
        rcases List.mem_cons.mp mem with rfl | later
        · exact before
        · exact String.lt_trans before (ahead other later)
      split
      · rename_i same
        exact List.pairwise_cons.mpr ⟨fun other mem => same ▸ ahead other mem, restOrdered⟩
      · rename_i notBefore different
        refine List.pairwise_cons.mpr ⟨?_, ih restOrdered⟩
        intro other mem
        rcases mem_insertEntry mem with rfl | later
        · exact Std.lt_of_le_of_ne (Std.not_lt.mp notBefore) (Ne.symm different)
        · exact ahead other later

theorem Ascending.insert {d : Directory} (ascending : d.Ascending) {name : String} {entry : Entry}
    (entryAscending : entry.Every Precedes) :
    (d.insert name entry).Ascending := by
  obtain ⟨ordered, inner⟩ := ascending_iff.mp ascending
  refine ascending_ofList_iff.mpr ⟨pairwise_insertEntry ordered, ?_⟩
  intro other mem
  rcases mem_insertEntry mem with rfl | old
  · exact entryAscending
  · exact inner other old

theorem Ascending.erase {d : Directory} (ascending : d.Ascending) (name : String) :
    (d.erase name).Ascending := by
  obtain ⟨ordered, inner⟩ := ascending_iff.mp ascending
  exact ascending_ofList_iff.mpr
    ⟨ordered.filter _, fun other mem => inner other (List.mem_filter.mp mem).1⟩

theorem Ascending.modify {change : Directory → Directory}
    (kept : ∀ d : Directory, d.Ascending → (change d).Ascending) {d : Directory}
    (ascending : d.Ascending) (place : Place) : (d.modify place change).Ascending := by
  induction place generalizing d with
  | nil => exact kept d ascending
  | cons name rest ih =>
      rw [Directory.modify]
      split
      · rename_i inner found
        have innerAscending : inner.Ascending := every_of_mem ascending (mem_of_find? found)
        exact ascending.insert (ih innerAscending)
      · exact ascending

end Directory

namespace Disk

theorem ascending_put {disk : Disk} (ascending : disk.root.Ascending) (place : Place) (name : String)
    {entry : Entry} (entryAscending : entry.Every Directory.Precedes) :
    (disk.put place name entry).root.Ascending :=
  .modify (fun _ inner => inner.insert entryAscending) ascending place

theorem ascending_remove {disk : Disk} (ascending : disk.root.Ascending) (place : Place)
    (name : String) : (disk.remove place name).root.Ascending :=
  .modify (fun _ inner => inner.erase name) ascending place

end Disk

end StringAudit
