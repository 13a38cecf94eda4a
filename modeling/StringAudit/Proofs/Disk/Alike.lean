import StringAudit.Collection
import StringAudit.Proofs.Charset.Form
import StringAudit.Proofs.Disk.Order

/-!
# Disks that store the same texts

Two disks are alike if the same entries stand at the same places in the same order, but for the form in
which files store their texts.  Following paths and searching never look into a file, so that both come
to the same on such disks, faults included; and so does reading, because the form does not matter to it.
-/

namespace StringAudit

/-- Two directories have the same entries, but for the form in which files store their texts. -/
inductive Directory.Alike : Directory → Directory → Prop
  | empty : Alike .empty .empty
  | file {name : String} {old new : File} {rest rest' : Directory}
      (same : TextFile.SameText old.bytes new.bytes) (others : Alike rest rest') :
      Alike (.file name old rest) (.file name new rest')
  | link {name target : String} {rest rest' : Directory} (others : Alike rest rest') :
      Alike (.link name target rest) (.link name target rest')
  | folder {name : String} {inner inner' rest rest' : Directory} (within : Alike inner inner')
      (others : Alike rest rest') : Alike (.folder name inner rest) (.folder name inner' rest')

/-- Two entries are the same, but for the form in which files store their texts. -/
inductive Entry.Alike : Entry → Entry → Prop
  | file {old new : File} (same : TextFile.SameText old.bytes new.bytes) : Alike (.file old) (.file new)
  | link {target : String} : Alike (.link target) (.link target)
  | folder {inner inner' : Directory} (within : inner.Alike inner') : Alike (.folder inner) (.folder inner')

/-- Two disks are the same, but for the form in which files store their texts. -/
structure Disk.Alike (disk disk' : Disk) : Prop where
  root : disk.root.Alike disk'.root
  here_eq : disk'.here = disk.here
  refusals_eq : disk'.refusals = disk.refusals

namespace Directory.Alike

variable {d d' : Directory}

/-- Alike entries stand under a name. -/
theorem find? (alike : d.Alike d') (name : String) :
    Option.Rel Entry.Alike (d.find? name) (d'.find? name) := by
  induction alike with
  | empty => exact .none
  | @file other old new rest rest' same _ ih =>
      change Option.Rel _ ((cons other (.file old) rest).find? name)
        ((cons other (.file new) rest').find? name)
      rw [find?_cons, find?_cons]
      split
      · exact .some (.file same)
      · exact ih
  | @link other target rest rest' _ ih =>
      change Option.Rel _ ((cons other (.link target) rest).find? name)
        ((cons other (.link target) rest').find? name)
      rw [find?_cons, find?_cons]
      split
      · exact .some .link
      · exact ih
  | @folder other inner inner' rest rest' within _ _ ih =>
      change Option.Rel _ ((cons other (.folder inner) rest).find? name)
        ((cons other (.folder inner') rest').find? name)
      rw [find?_cons, find?_cons]
      split
      · exact .some (.folder within)
      · exact ih

/-- Alike entries stand at a place. -/
theorem at? (alike : d.Alike d') (place : Place) :
    Option.Rel Entry.Alike (d.at? place) (d'.at? place) := by
  induction place generalizing d d' with
  | nil => exact .some (.folder alike)
  | cons name rest ih =>
      rw [Directory.at?, Directory.at?]
      have found := alike.find? name
      generalize d.find? name = entry, d'.find? name = entry' at found
      rcases found with ⟨same | _ | within⟩ | _
      · by_cases last : rest = []
        · simpa only [last, if_true] using .some (.file same)
        · simpa only [last, if_false] using .none
      · by_cases last : rest = []
        · simpa only [last, if_true] using .some .link
        · simpa only [last, if_false] using .none
      · exact ih within
      · exact .none

end Directory.Alike

namespace Disk

/-! ## Following paths -/

variable {root root' : Directory}

theorem walk_alike (alike : root.Alike root')
    (onLink : Place → String → List String → Except Cause Place) (last : Bool) (place : Place)
    (pieces : List String) :
    walk root' onLink last place pieces = walk root onLink last place pieces := by
  induction pieces generalizing place with
  | nil => rfl
  | cons piece rest ih =>
      have standing := alike.at? place
      rw [walk, walk]
      generalize root.at? place = holder, root'.at? place = holder' at standing
      rcases standing with ⟨_ | _ | @⟨d, d', within⟩⟩ | _
      · rfl
      · rfl
      · have found := within.find? piece
        simp only [ih]
        generalize d.find? piece = entry, d'.find? piece = entry' at found
        rcases found with ⟨_ | _ | _⟩ | _ <;> rfl
      · rfl

theorem follow_alike (alike : root.Alike root') (last : Bool) (links : Nat) (place : Place)
    (pieces : List String) : follow root' last links place pieces = follow root last links place pieces := by
  induction links generalizing place pieces with
  | zero => exact walk_alike alike _ last place pieces
  | succ links ih =>
      rw [follow, follow, walk_alike alike]
      simp only [ih]

namespace Alike

variable {disk disk' : Disk}

theorem resolve_eq (alike : disk.Alike disk') (path : String) (last : Bool) :
    disk'.resolve path last = disk.resolve path last := by
  rw [resolve, resolve, alike.here_eq, follow_alike alike.root]

/-- A path leads to alike entries at the same place, or it fails for the same cause. -/
theorem entry_cases (alike : disk.Alike disk') (path : String) :
    (∃ place entry entry', disk.entry path = .ok (place, entry) ∧
      disk'.entry path = .ok (place, entry') ∧ entry.Alike entry') ∨
      ∃ cause, disk.entry path = .error cause ∧ disk'.entry path = .error cause := by
  rw [entry, entry, alike.resolve_eq]
  cases disk.resolve path with
  | error cause => exact Or.inr ⟨cause, rfl, rfl⟩
  | ok place =>
      have standing := alike.root.at? place
      simp only [bind, Except.bind]
      generalize disk.root.at? place = entry, disk'.root.at? place = entry' at standing
      cases standing with
      | some related => exact Or.inl ⟨place, _, _, rfl, rfl, related⟩
      | none => exact Or.inr ⟨.missing, rfl, rfl⟩

theorem isDirectory_eq (alike : disk.Alike disk') (path : String) :
    disk'.isDirectory path = disk.isDirectory path := by
  rw [isDirectory, isDirectory]
  rcases alike.entry_cases path with ⟨place, _, _, entryEq, entryEq', ⟨_⟩ | _ | ⟨_⟩⟩ |
    ⟨cause, entryEq, entryEq'⟩
  all_goals rw [entryEq, entryEq']

end Alike

end Disk

/-! ## Searching -/

namespace Collection

variable {disk disk' : Disk}

theorem listed_alike (alike : disk.Alike disk') (path : String) (found : Found) :
    listed disk' path found = listed disk path found := by
  rw [listed, listed, Disk.listingCause?, Disk.listingCause?, alike.refusals_eq]

theorem gather_alike (alike : disk.Alike disk') (search : Search) (path : String) {d d' : Directory}
    (same : d.Alike d') : gather disk' search path d' = gather disk search path d := by
  induction same generalizing path with
  | empty => rfl
  | file _ _ ih => rw [gather, gather, ih]
  | link _ ih => rw [gather, gather, ih, alike.isDirectory_eq]
  | folder _ _ ihInner ih => rw [gather, gather, ih, ihInner, listed_alike alike]

theorem collectRoot_alike (alike : disk.Alike disk') (search : Search) (root : String) :
    collectRoot disk' search root = collectRoot disk search root := by
  rw [collectRoot, collectRoot]
  by_cases usable : Disk.isUsable root = true
  · rw [if_pos usable, if_pos usable]
    rcases alike.entry_cases root with ⟨place, _, _, entryEq, entryEq', ⟨_⟩ | _ | ⟨within⟩⟩ |
      ⟨cause, entryEq, entryEq'⟩
    all_goals rw [entryEq, entryEq']
    simp only [gather_alike alike search root within, listed_alike alike]
  · rw [if_neg usable, if_neg usable]

/-- A search comes to the same on disks that are alike. -/
theorem collect_alike (alike : disk.Alike disk') (search : Search) (roots : List String) :
    collect disk' search roots = collect disk search roots := by
  induction roots with
  | nil => rfl
  | cons root rest ih => rw [collect, collect, ih, collectRoot_alike alike]

end Collection

/-! ## Reading -/

namespace TextFile

/-- Reading a file comes to the same on disks that are alike. -/
theorem read_alike {disk disk' : Disk} (alike : disk.Alike disk') (path : String) :
    read path disk' = read path disk := by
  rw [read, read, alike.refusals_eq, Disk.readBytes, Disk.readBytes]
  rcases alike.entry_cases (Path.tidy path) with ⟨place, _, _, entryEq, entryEq', ⟨same⟩ | _ | ⟨_⟩⟩ |
    ⟨cause, entryEq, entryEq'⟩
  all_goals rw [entryEq, entryEq']
  simp only [same.decode_eq]

end TextFile

end StringAudit
