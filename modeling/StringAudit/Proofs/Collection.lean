import Mathlib.Tactic.Common
import StringAudit.Collection
import StringAudit.Proofs.Disk.Below
import StringAudit.Proofs.Disk.Overwrite

/-!
# What a search finds again

A search finds the same paths after files have been put where entries led to no directory: the same
names stand in the same directories, a link to a file and the file instead of it both count, and no
path leads to a directory that did not lead there before.
-/

namespace StringAudit

/-! ## Directories entry by entry -/

/-- What stands at a place is the same as before, or, if the place is a spot, a file instead of a
file or a link. -/
def Leaf.Refiled (spot : Prop) (old new : Option Leaf) : Prop :=
  new = old ∨ spot ∧ (∃ contents, new = some (.file contents)) ∧ old ≠ none ∧ old ≠ some .folder

namespace Directory

/-- At the places below a directory at `place` stand the same entries, or files at spots. -/
def Refiled (spots : List Place) (place : Place) (old new : Directory) : Prop :=
  ∀ rest, Leaf.Refiled (place ++ rest ∈ spots) (old.look rest) (new.look rest)

/-- The entries of a directory are among those that stand below a place. -/
def StandsAt (d : Directory) (disk : Disk) (place : Place) : Prop :=
  ∀ name rest, d.look (name :: rest) ≠ none →
    disk.look (place ++ name :: rest) = d.look (name :: rest)

theorem look_singleton (d : Directory) (name : String) :
    d.look [name] = (d.find? name).map Entry.leaf :=
  look_append_singleton (show d.at? [] = some (.folder d) from rfl) name

theorem find?_eq_none_of_precedes {d : Directory} {name : String} (ahead : Precedes name d.names)
    {other : String} (notAfter : ¬ name < other) : d.find? other = none := by
  rw [Option.eq_none_iff_forall_ne_some]
  intro entry found
  exact notAfter (ahead other (List.mem_map_of_mem (mem_of_find? found)))

theorem look_cons_eq_none {d : Directory} {name : String} (absent : d.find? name = none) (rest : Place) :
    d.look (name :: rest) = none := by
  rw [look_cons, absent]

theorem look_cons_cons_of_ne {name other : String} (different : other ≠ name) (entry : Entry)
    (d : Directory) (rest : Place) :
    (cons name entry d).look (other :: rest) = d.look (other :: rest) := by
  rw [look_cons, find?_cons, if_neg different, look_cons]

theorem look_cons_folder (name : String) (inner d : Directory) (rest : Place) :
    (cons name (.folder inner) d).look (name :: rest) = inner.look rest := by
  rw [look_cons, find?_cons, if_pos rfl]

/-! ### Directories in order, side by side -/

namespace Refiled

variable {spots : List Place} {place : Place}

theorem eq_empty {new : Directory} (refiled : Refiled spots place empty new) : new = empty := by
  by_contra nonempty
  obtain ⟨name, entry, rest, rfl⟩ := exists_cons nonempty
  have first := refiled [name]
  rw [look_singleton, look_singleton, find?_cons, if_pos rfl] at first
  rcases first with same | ⟨_, _, absent, _⟩
  · cases same
  · exact absent rfl

/-- Both start with the same name. -/
theorem exists_cons_of_cons {name : String} {entry : Entry} {rest new : Directory}
    (refiled : Refiled spots place (cons name entry rest) new)
    (ascending : (cons name entry rest).Ascending) (newAscending : new.Ascending) :
    ∃ newEntry newRest, new = cons name newEntry newRest ∧ newEntry.Every Precedes ∧
      newRest.Ascending ∧ Leaf.Refiled (place ++ [name] ∈ spots) (some entry.leaf) (some newEntry.leaf) ∧
      Refiled spots place rest newRest := by
  have first := refiled [name]
  rw [look_singleton, look_singleton, find?_cons, if_pos rfl] at first
  have nonempty : new ≠ empty := by
    rintro rfl
    rcases first with same | ⟨_, ⟨_, same⟩, _⟩
    · cases same
    · cases same
  obtain ⟨other, newEntry, newRest, rfl⟩ := exists_cons nonempty
  obtain ⟨ahead, _, _⟩ := every_cons.mp ascending
  obtain ⟨newAhead, newEvery, newRestAscending⟩ := every_cons.mp newAscending
  -- each of the two names occurs in the other directory, so that neither comes before the other
  obtain rfl : name = other := by
    by_contra different
    have oldFirst : name < other := by
      by_contra notAfter
      have second := refiled [other]
      rw [look_singleton, look_singleton, find?_cons, find?_cons, if_pos rfl, if_neg (Ne.symm different),
        find?_eq_none_of_precedes ahead notAfter] at second
      rcases second with same | ⟨_, _, absent, _⟩
      · cases same
      · exact absent rfl
    rw [find?_cons, if_neg different,
      find?_eq_none_of_precedes newAhead (String.lt_asymm oldFirst)] at first
    rcases first with same | ⟨_, ⟨_, same⟩, _⟩
    · cases same
    · cases same
  rw [find?_cons, if_pos rfl] at first
  refine ⟨newEntry, newRest, rfl, newEvery, newRestAscending, first, ?_⟩
  intro deeper
  cases deeper with
  | nil => exact Or.inl rfl
  | cons next deeper =>
      by_cases same : next = name
      · subst next
        left
        rw [look_cons_eq_none (find?_eq_none_of_precedes ahead (String.lt_irrefl name)),
          look_cons_eq_none (find?_eq_none_of_precedes newAhead (String.lt_irrefl name))]
      · have later := refiled (next :: deeper)
        rwa [look_cons_cons_of_ne same, look_cons_cons_of_ne same] at later

/-- The same of directories in them. -/
theorem inner {name : String} {old new rest newRest : Directory}
    (refiled : Refiled spots place (cons name (.folder old) rest) (cons name (.folder new) newRest)) :
    Refiled spots (place ++ [name]) old new := by
  intro deeper
  have below := refiled (name :: deeper)
  rwa [look_cons_folder, look_cons_folder, List.append_cons] at below

end Refiled

namespace StandsAt

variable {disk : Disk} {place : Place} {name : String} {rest : Directory}

theorem tail {entry : Entry} (stands : (cons name entry rest).StandsAt disk place)
    (ahead : Precedes name rest.names) : rest.StandsAt disk place := by
  intro other deeper there
  have different : other ≠ name := by
    rintro rfl
    exact there (look_cons_eq_none (find?_eq_none_of_precedes ahead (String.lt_irrefl other)) deeper)
  have later := stands other deeper
  rw [look_cons_cons_of_ne different] at later
  exact later there

theorem folder {inner : Directory} (stands : (cons name (.folder inner) rest).StandsAt disk place) :
    disk.look (place ++ [name]) = some .folder := by
  have first := stands name []
  rw [look_cons_folder] at first
  exact first (Option.some_ne_none _)

theorem inner {inner : Directory} (stands : (cons name (.folder inner) rest).StandsAt disk place) :
    inner.StandsAt disk (place ++ [name]) := by
  intro other deeper there
  have below := stands name (other :: deeper)
  rw [look_cons_folder] at below
  rw [← List.append_cons]
  exact below there

end StandsAt

end Directory

namespace Disk

/-! ## Paths to directories -/

/-- A path leads to a directory at a place. -/
structure Enters (disk : Disk) (path : String) (place : Place) : Prop where
  nonempty : path ≠ ""
  route : ∃ links, Route disk.look (start disk.here path) (steps path) links place
  there : disk.look place = some .folder

namespace Enters

variable {disk : Disk} {path name : String} {place : Place}

/-- A joined name is one more step. -/
theorem route_join (enters : disk.Enters path place) (joinable : IsJoinable name) {links : Nat}
    {goal : Place} (route : Route disk.look place [name] links goal) :
    ∃ total, Route disk.look (start disk.here (Path.join path name)) (steps (Path.join path name))
      total goal := by
  obtain ⟨before, onward⟩ := enters.route
  have reaches : disk.Reaches path before place := ⟨enters.nonempty, onward, enters.there⟩
  exact ⟨_, (reaches.route_join_iff joinable).mpr ⟨links, rfl, route⟩⟩

theorem join (enters : disk.Enters path place) (named : Directory.IsEntryName name)
    (there : disk.look (place ++ [name]) = some .folder) :
    disk.Enters (Path.join path name) (place ++ [name]) where
  nonempty := join_ne_empty enters.nonempty ⟨named.1, named.2.1⟩
  route := enters.route_join ⟨named.1, named.2.1⟩
    (.enter enters.there named.2.2 there (by simp) (.done _))
  there := there

/-- A joined name that leads to what is no directory gives a path to no directory. -/
theorem isDirectory_join (enters : disk.Enters path place) (joinable : IsJoinable name) {links : Nat}
    {goal : Place} (route : Route disk.look place [name] links goal)
    (leaf : disk.look goal ≠ some .folder) : disk.isDirectory (Path.join path name) = false := by
  rw [Bool.eq_false_iff, ne_eq, isDirectory_eq_true_iff]
  rintro ⟨_, other, resolved, there⟩
  obtain ⟨_, _, _, _, otherRoute⟩ := resolve_eq_ok_iff.mp resolved
  obtain ⟨_, whole⟩ := enters.route_join joinable route
  obtain ⟨_, rfl⟩ := otherRoute.deterministic whole
  exact leaf there

end Enters

/-- At every place stands the same as before, or a file instead of a file or a link. -/
theorem Refiles.leaf_refiled {after before : Disk} {spots : List Place}
    (refiles : Refiles after before spots) (place : Place) :
    Leaf.Refiled (place ∈ spots) (before.look place) (after.look place) := by
  by_cases mem : place ∈ spots
  · obtain ⟨_, _, entryLeads, leaf⟩ := refiles.old place mem
    exact Or.inr ⟨mem, refiles.file place mem, entryLeads.look_ne_none leaf,
      entryLeads.leaf leaf⟩
  · exact Or.inl (refiles.look_eq place mem)

/-- The same paths lead to the same directories. -/
theorem Refiles.resolve_folder_iff {after before : Disk} {spots : List Place}
    (refiles : Refiles after before spots) {path : String} {place : Place} :
    after.resolve path = .ok place ∧ after.look place = some .folder ↔
      before.resolve path = .ok place ∧ before.look place = some .folder := by
  simp only [resolve_eq_ok_iff, refiles.here_eq, and_assoc, ← exists_and_right,
    refiles.route_folder_iff]

theorem Refiles.isDirectory_eq {after before : Disk} {spots : List Place}
    (refiles : Refiles after before spots) (path : String) :
    after.isDirectory path = before.isDirectory path := by
  rw [Bool.eq_iff_iff, isDirectory_eq_true_iff, isDirectory_eq_true_iff]
  simp only [refiles.resolve_folder_iff]

end Disk

namespace Collection

open Directory Disk

/-! ## Searching again -/

variable {after before : Disk} {spots : List Place} {search : Search}

/-- A link at a spot led to no directory. -/
theorem isDirectory_join_of_spot (refiles : Refiles after before spots) {path name : String}
    {place : Place} (enters : before.Enters path place) (named : IsEntryName name)
    (mem : place ++ [name] ∈ spots) : before.isDirectory (Path.join path name) = false := by
  obtain ⟨_, _, ⟨holder, last, spotEq, route⟩, leaf⟩ := refiles.old _ mem
  obtain ⟨rfl, nameEq⟩ := List.append_inj' spotEq rfl
  obtain rfl := List.singleton_inj.mp nameEq
  exact enters.isDirectory_join ⟨named.1, named.2.1⟩ route leaf

/-- The same is found in a directory and in one that comes from it by new files. -/
theorem gather_eq (refiles : Refiles after before spots) {path : String} {place : Place}
    {old new : Directory} (enters : before.Enters path place) (stands : old.StandsAt before place)
    (refiled : Refiled spots place old new) (ascending : old.Ascending) (newAscending : new.Ascending)
    (named : old.Named) : gather after search path new = gather before search path old := by
  induction old using Directory.consInduction generalizing path place new with
  | empty =>
      rw [refiled.eq_empty]
      rfl
  | cons name entry rest ihInner ih =>
      obtain ⟨newEntry, newRest, rfl, newEvery, newRestAscending, leaf, restRefiled⟩ :=
        refiled.exists_cons_of_cons ascending newAscending
      obtain ⟨ahead, every, restAscending⟩ := every_cons.mp ascending
      obtain ⟨entryNamed, innerNamed, restNamed⟩ := every_cons.mp named
      have later := ih enters (stands.tail ahead) restRefiled restAscending newRestAscending restNamed
      cases entry with
      | file old =>
          cases newEntry with
          | file new => simp only [cons, gather, later]
          | link target => simp [Leaf.Refiled, Entry.leaf] at leaf
          | folder inner => simp [Leaf.Refiled, Entry.leaf] at leaf
      | link target =>
          cases newEntry with
          | file new =>
              have mem : place ++ [name] ∈ spots := by
                simpa [Leaf.Refiled, Entry.leaf] using leaf
              simp only [cons, gather, later, isDirectory_join_of_spot refiles enters entryNamed mem,
                Bool.not_false, Bool.and_true]
          | link other =>
              obtain rfl : other = target := by
                simpa [Leaf.Refiled, Entry.leaf] using leaf
              simp only [cons, gather, later, refiles.isDirectory_eq]
          | folder inner => simp [Leaf.Refiled, Entry.leaf] at leaf
      | folder inner =>
          cases newEntry with
          | file new => simp [Leaf.Refiled, Entry.leaf] at leaf
          | link target => simp [Leaf.Refiled, Entry.leaf] at leaf
          | folder newInner =>
              have below := ihInner inner rfl (enters.join entryNamed stands.folder) stands.inner
                refiled.inner every newEvery innerNamed
              simp only [cons, gather, later, below, listed, Disk.listingCause?, refiles.refusals_eq]

/-! ## All roots -/

/-- A root directory of a search. -/
theorem collectRoot_eq_ok {disk : Disk} {root : String} {files : List String}
    (collected : collectRoot disk search root = .ok files) :
    ∃ place inner, isUsable root = true ∧ disk.resolve root = .ok place ∧
      disk.root.at? place = some (.folder inner) ∧
      listed disk root (gather disk search root inner) = .ok files := by
  rw [collectRoot] at collected
  split at collected
  · rename_i place inner found
    split at found
    · rename_i usable
      obtain ⟨resolved, inside⟩ := entry_eq_ok_iff.mp found
      exact ⟨place, inner, usable, resolved, inside, collected⟩
    · cases found
  · cases collected
  · cases collected

/-- What a search finds below a root it finds again. -/
theorem collectRoot_again (refiles : Refiles after before spots) (ascending : before.root.Ascending)
    (named : before.root.Named) (afterAscending : after.root.Ascending) {root : String}
    {files : List String} (collected : collectRoot before search root = .ok files) :
    collectRoot after search root = .ok files := by
  obtain ⟨place, inner, usable, resolved, inside, listedEq⟩ := collectRoot_eq_ok collected
  have there : before.look place = some .folder := (look_eq_folder_iff _ place).mpr ⟨inner, inside⟩
  obtain ⟨resolvedAfter, thereAfter⟩ := refiles.resolve_folder_iff.mpr ⟨resolved, there⟩
  obtain ⟨newInner, insideAfter⟩ := (look_eq_folder_iff _ place).mp thereAfter
  have lookOld := Directory.look_append inside
  have lookNew := Directory.look_append insideAfter
  have enters : before.Enters root place := by
    obtain ⟨nonempty, _, links, _, route⟩ := resolve_eq_ok_iff.mp resolved
    exact ⟨nonempty, ⟨links, route⟩, there⟩
  have stands : inner.StandsAt before place := fun name rest _ => lookOld (name :: rest)
  have refiled : Refiled spots place inner newInner := by
    intro rest
    rw [← lookOld, ← lookNew]
    exact refiles.leaf_refiled (place ++ rest)
  have gathered : gather after search root newInner = gather before search root inner :=
    gather_eq refiles enters stands refiled (every_of_at? ascending inside)
      (every_of_at? afterAscending insideAfter) (every_of_at? named inside)
  have found : after.entry root = .ok (place, .folder newInner) :=
    entry_eq_ok_iff.mpr ⟨resolvedAfter, insideAfter⟩
  rw [collectRoot, if_pos usable, found]
  simp only [gathered]
  rwa [listed, Disk.listingCause?, refiles.refusals_eq]

theorem collect_cons_eq_ok_iff {disk : Disk} {root : String} {rest files : List String} :
    collect disk search (root :: rest) = .ok files ↔
      ∃ first others, collectRoot disk search root = .ok first ∧ collect disk search rest = .ok others ∧
        files = first ++ others := by
  simp only [collect, Except.bind_eq_ok_iff, pure, Except.pure, Except.ok.injEq]
  constructor
  · rintro ⟨first, firstEq, others, othersEq, rfl⟩
    exact ⟨first, others, firstEq, othersEq, rfl⟩
  · rintro ⟨first, others, firstEq, othersEq, rfl⟩
    exact ⟨first, firstEq, others, othersEq, rfl⟩

/-- What a search finds it finds again after files have been put where entries led to no directory.
-/
theorem collect_again (refiles : Refiles after before spots) (ascending : before.root.Ascending)
    (named : before.root.Named) (afterAscending : after.root.Ascending) {roots files : List String}
    (collected : collect before search roots = .ok files) : collect after search roots = .ok files := by
  induction roots generalizing files with
  | nil => exact collected
  | cons root rest ih =>
      obtain ⟨first, others, firstEq, othersEq, rfl⟩ := collect_cons_eq_ok_iff.mp collected
      exact collect_cons_eq_ok_iff.mpr ⟨first, others,
        collectRoot_again refiles ascending named afterAscending firstEq, ih othersEq, rfl⟩

end Collection

end StringAudit
