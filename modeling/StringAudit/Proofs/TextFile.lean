import StringAudit.Proofs.Disk.Order
import StringAudit.Proofs.Disk.Overwrite
import StringAudit.Proofs.Disk.Target
import StringAudit.TextFile

/-!
# Reading and replacing text files

A text is read from the file that a path leads to.  Replacing it overwrites the entry that the path
names, and nothing else: the temporary file is gone again, and a replacement that fails leaves the
disk as it was.
-/

namespace StringAudit

/-- A path leads through a number of links to a file at a place, and the disk lets it be read. -/
structure Disk.Reads (disk : Disk) (path : String) (links : Nat) (place : Place) (contents : File) :
    Prop where
  usable : isUsable path = true
  permitted : isAmong disk.refusals.reading path = false
  short : (Path.tidy path).utf8ByteSize ≤ maxPathBytes
  named : (Path.parse path).names ≠ []
  few : links ≤ maxLinks
  leads : disk.Leads (.parse path) links place
  found : disk.look place = some (.file contents)

namespace Disk

theorem look_eq_file_iff {disk : Disk} {place : Place} {contents : File} :
    disk.look place = some (.file contents) ↔ disk.root.at? place = some (.file contents) := by
  rw [look, Directory.look]
  cases disk.root.at? place with
  | none => simp
  | some entry => cases entry <;> simp [Entry.leaf]

theorem entry_eq_file_iff {disk : Disk} {path : String} {place : Place} {contents : File} :
    disk.entry path = .ok (place, .file contents) ↔
      disk.resolve path = .ok place ∧ disk.look place = some (.file contents) := by
  rw [entry_eq_ok_iff, look_eq_file_iff]

theorem readBytes_eq_ok_iff {disk : Disk} {path : String} {bytes : List UInt8} :
    disk.readBytes path = .ok bytes ↔
      ∃ place contents, disk.entry path = .ok (place, .file contents) ∧ contents.bytes = bytes := by
  rw [readBytes]
  cases disk.entry path with
  | error cause => simp
  | ok found =>
      obtain ⟨place, entry⟩ := found
      cases entry with
      | file contents =>
          constructor
          · intro bytesEq
            exact ⟨place, contents, rfl, Except.ok.inj bytesEq⟩
          · rintro ⟨_, _, same, rfl⟩
            cases same
            rfl
      | link target => simp
      | folder inner => simp

/-- A path that can be read leads to the bytes of its file. -/
theorem Reads.readBytes_eq {disk : Disk} {path : String} {links : Nat} {place : Place} {contents : File}
    (reads : disk.Reads path links place contents) :
    disk.readBytes (Path.tidy path) = .ok contents.bytes := by
  have resolved : disk.resolve (Path.tidy path) = .ok place :=
    (resolve_text_eq_ok_iff (Path.parse_proper path)).mpr
      ⟨reads.short, ⟨links, reads.few, reads.leads⟩, fun nameless => absurd nameless reads.named⟩
  exact readBytes_eq_ok_iff.mpr ⟨place, contents, entry_eq_file_iff.mpr ⟨resolved, reads.found⟩, rfl⟩

/-- Only a directory holds entries. -/
theorem folder_of_holder {disk : Disk} {p : Path} {place : Place} {named : Option String}
    (held : disk.holder p = .ok (place, named)) : disk.look place = some .folder := by
  rw [holder, Except.bind_eq_ok_iff] at held
  obtain ⟨goal, _, held⟩ := held
  split at held
  · rename_i inner thereEq
    cases held
    exact (disk.root.look_eq_folder_iff place).mpr ⟨inner, thereEq⟩
  · cases held

theorem look_eq_named (disk : Disk) (place : Place) (name : String) :
    disk.look (place ++ [name]) = (disk.named place name).map Entry.leaf :=
  rfl

end Disk

namespace TextFile

/-! ## Reading -/

/-- A file is read exactly when its path leads to it, the disk lets it be read, and its bytes make a
text. -/
theorem read_eq_ok_iff {path text : String} {disk : Disk} :
    read path disk = .ok text ↔
      ∃ links place contents, disk.Reads path links place contents ∧
        decode contents.bytes = .ok text.toList := by
  have proper := Path.parse_proper path
  constructor
  · intro readEq
    simp only [read] at readEq
    split at readEq
    · cases readEq
    rename_i usable
    split at readEq
    · cases readEq
    rename_i permitted
    split at readEq
    · cases readEq
    rename_i bytes bytesEq
    split at readEq
    · cases readEq
    rename_i chars decoded
    obtain ⟨place, contents, entryEq, rfl⟩ := Disk.readBytes_eq_ok_iff.mp bytesEq
    obtain ⟨resolved, found⟩ := Disk.entry_eq_file_iff.mp entryEq
    obtain ⟨short, ⟨links, few, leads⟩, top⟩ := (Disk.resolve_text_eq_ok_iff proper).mp resolved
    have named : (Path.parse path).names ≠ [] := by
      intro nameless
      rw [top nameless, Option.some.injEq] at found
      cases found
    refine ⟨links, place, contents, ⟨?_, ?_, short, named, few, leads, found⟩, ?_⟩
    · simpa using usable
    · simpa using permitted
    · rw [decoded, ← Except.ok.inj readEq, String.toList_ofList]
  · rintro ⟨links, place, contents, reads, decoded⟩
    simp [read, reads.usable, reads.permitted, reads.readBytes_eq, decoded]

/-- If the path does not hold the character U+0000, a file that cannot be read has a reason. -/
theorem reason_of_read {path : String} {disk : Disk} {failure : Failure}
    (usable : Disk.isUsable path = true) (unread : read path disk = .error failure) :
    ∃ reason, failure = .unreadable path reason := by
  simp only [read, usable, Bool.not_true, if_neg Bool.false_ne_true] at unread
  split at unread
  · cases unread
    exact ⟨_, rfl⟩
  split at unread
  · cases unread
    exact ⟨_, rfl⟩
  split at unread
  · cases unread
    exact ⟨_, rfl⟩
  · cases unread

/-! ## Temporary files -/

theorem temporaryName_ne (name : String) (n : Nat) : temporaryName name n ≠ name := by
  intro same
  have length := congrArg String.length same
  simp [temporaryName] at length
  omega

/-- A free slot is a free name in a directory. -/
structure Slot.Free (slot : Slot) (disk : Disk) (target : Path) : Prop where
  there : disk.look slot.place = some .folder
  empty : disk.look (slot.place ++ [slot.name]) = none
  temporary : ∃ n, slot.name = temporaryName target.name n

theorem free_of_freeSlot {disk : Disk} {target : Path} {slot : Slot}
    (found : freeSlot disk target = .ok slot) : slot.Free disk target := by
  simp only [freeSlot] at found
  split at found
  · cases found
  rename_i place named held
  split at found
  · cases found
  split at found
  · rename_i n free
    cases found
    have unused := List.find?_some free
    rw [Option.isNone_iff_eq_none] at unused
    refine ⟨Disk.folder_of_holder held, ?_, n, rfl⟩
    rw [Disk.look_eq_named, unused, Option.map_none]
  · cases found

/-- The spot of a slot. -/
def Slot.spot (slot : Slot) : Place :=
  slot.place ++ [slot.name]

namespace Slot.Free

variable {slot : Slot} {disk filled : Disk} {target : Path} {contents : File}

theorem ne_spot (free : slot.Free disk target) : slot.place ≠ slot.spot := by
  intro same
  have there := free.there
  rw [same, Slot.spot, free.empty] at there
  cases there

/-- Putting a file into a slot overwrites its spot. -/
theorem overwrites_put (free : slot.Free disk target) (contents : File) :
    Disk.Overwrites (disk.put slot.place slot.name (.file contents)) disk slot.spot contents where
  look_eq := Disk.look_put free.there (by simp [free.empty]) (by simp [Entry.leaf])
  here_eq := rfl
  refusals_eq := rfl

/-- Putting a file into a slot again overwrites the same spot. -/
theorem overwrites_put_again (free : slot.Free disk target)
    (filling : Disk.Overwrites filled disk slot.spot contents) (again : File) :
    Disk.Overwrites (filled.put slot.place slot.name (.file again)) disk slot.spot again where
  look_eq := by
    intro place
    have there : filled.look slot.place = some .folder := by
      rw [filling.look_of_ne free.ne_spot, free.there]
    have old : filled.look slot.spot ≠ some .folder := by simp [filling.look_spot]
    rw [Disk.look_put there old (by simp [Entry.leaf]), filling.look_eq]
    change (if place = slot.spot then some (Leaf.file again) else _) = _
    by_cases same : place = slot.spot
    · rw [if_pos same, if_pos same]
    · rw [if_neg same, if_neg same, if_neg same]
  here_eq := filling.here_eq
  refusals_eq := filling.refusals_eq

/-- Removing the file from a slot leaves the disk as it was. -/
theorem agrees_remove (free : slot.Free disk target)
    (filling : Disk.Overwrites filled disk slot.spot contents) :
    (filled.remove slot.place slot.name).Agrees disk where
  look_eq := by
    intro place
    have there : filled.look slot.place = some .folder := by
      rw [filling.look_of_ne free.ne_spot, free.there]
    have old : filled.look slot.spot ≠ some .folder := by simp [filling.look_spot]
    rw [Disk.look_remove there old]
    change (if place = slot.spot then none else filled.look place) = _
    by_cases same : place = slot.spot
    · rw [if_pos same, same, Slot.spot, free.empty]
    · rw [if_neg same, filling.look_of_ne same]
  here_eq := filling.here_eq
  refusals_eq := filling.refusals_eq

/-- The entry that a path names is no temporary file for it. -/
theorem spot_ne (free : slot.Free disk target) (proper : target.Proper) {place : Place} {name : String}
    (held : disk.holder target = .ok (place, some name)) : place ++ [name] ≠ slot.spot := by
  intro same
  obtain ⟨front, namesEq, _⟩ := (Disk.holder_eq_ok_iff proper).mp held
  obtain ⟨n, temporary⟩ := free.temporary
  have nameEq : target.name = name := by
    rw [Path.name, namesEq, List.getLastD_concat]
  have slotEq := List.singleton_inj.mp (List.append_inj' same rfl).2
  rw [temporary, nameEq] at slotEq
  exact temporaryName_ne name n slotEq.symm

end Slot.Free

/-! ## Permission bits -/

/-- The permission bits of what a path leads to, or those of a new file if it leads nowhere. -/
def modeFor (disk : Disk) (path : String) : Nat :=
  match disk.entry path with
  | .ok (_, entry) => modeOf entry
  | .error _ => freshMode

theorem modeOf_eq_of_leaf_eq {entry other : Entry} (same : entry.leaf = other.leaf) :
    modeOf entry = modeOf other := by
  cases entry <;> cases other <;> cases same <;> rfl

section modeFor

variable {filled disk : Disk} {spot : Place} {contents : File}

/-- Where nothing stood a new file changes nothing for a path that led somewhere. -/
theorem entry_filled (filling : Disk.Overwrites filled disk spot contents)
    (empty : disk.look spot = none) {path : String} {place : Place} {entry : Entry}
    (found : disk.entry path = .ok (place, entry)) :
    ∃ now, filled.entry path = .ok (place, now) ∧ now.leaf = entry.leaf := by
  obtain ⟨resolved, there⟩ := Disk.entry_eq_ok_iff.mp found
  obtain ⟨nonempty, short, links, few, route⟩ := Disk.resolve_eq_ok_iff.mp resolved
  have kept : ∀ place, disk.look place ≠ none → filled.look place = disk.look place := by
    intro place stands
    exact filling.look_of_ne fun same => stands (same ▸ empty)
  have standing : disk.look place = some entry.leaf := Option.map_eq_some_iff.mpr ⟨entry, there, rfl⟩
  have standsStill : filled.look place = some entry.leaf := by
    rw [kept place (by simp [standing]), standing]
  obtain ⟨now, nowThere, leafEq⟩ := Option.map_eq_some_iff.mp standsStill
  have resolvedStill : filled.resolve path = .ok place := by
    refine Disk.resolve_eq_ok_iff.mpr ⟨nonempty, short, links, few, ?_⟩
    rw [filling.here_eq]
    exact route.mono kept
  exact ⟨now, Disk.entry_eq_ok_iff.mpr ⟨resolvedStill, nowThere⟩, leafEq⟩

/-- A path that leads elsewhere than to the new file led there before. -/
theorem entry_unfilled (filling : Disk.Overwrites filled disk spot contents) {path : String}
    {place : Place} {now : Entry} (found : filled.entry path = .ok (place, now))
    (elsewhere : place ≠ spot) :
    ∃ entry, disk.entry path = .ok (place, entry) ∧ now.leaf = entry.leaf := by
  obtain ⟨resolved, there⟩ := Disk.entry_eq_ok_iff.mp found
  obtain ⟨nonempty, short, links, few, route⟩ := Disk.resolve_eq_ok_iff.mp resolved
  have standing : filled.look place = some now.leaf := Option.map_eq_some_iff.mpr ⟨now, there, rfl⟩
  rw [filling.look_of_ne elsewhere] at standing
  obtain ⟨entry, entryThere, leafEq⟩ := Option.map_eq_some_iff.mp standing
  have resolvedBefore : disk.resolve path = .ok place := by
    refine Disk.resolve_eq_ok_iff.mpr ⟨nonempty, short, links, few, ?_⟩
    rw [← filling.here_eq]
    exact filling.route_before route elsewhere
  exact ⟨entry, Disk.entry_eq_ok_iff.mpr ⟨resolvedBefore, entryThere⟩, leafEq.symm⟩

/-- The permission bits that a temporary file takes over are those of what the path led to before there
was one.  A path that leads to the temporary file itself led nowhere. -/
theorem modeFor_eq_of_modeAt (filling : Disk.Overwrites filled disk spot contents)
    (empty : disk.look spot = none) (fresh : contents.mode = freshMode) {path : String}
    {mode : Option Nat} (found : modeAt filled path = .ok mode) :
    mode.getD freshMode = modeFor disk path := by
  rw [modeAt] at found
  split at found
  · rename_i place now foundEq
    cases found
    by_cases same : place = spot
    · subst place
      obtain ⟨_, there⟩ := Disk.entry_eq_ok_iff.mp foundEq
      have leafEq : now.leaf = (Entry.file contents).leaf := by
        have standing : filled.look spot = some now.leaf := Option.map_eq_some_iff.mpr ⟨now, there, rfl⟩
        exact Option.some.inj (standing.symm.trans filling.look_spot)
      have modeEq : modeOf now = freshMode := (modeOf_eq_of_leaf_eq leafEq).trans fresh
      rw [Option.getD_some, modeEq, modeFor]
      split
      · rename_i place entry entryEq
        obtain ⟨_, again, _⟩ := entry_filled filling empty entryEq
        obtain ⟨rfl, -⟩ := Prod.mk.inj (Except.ok.inj (foundEq.symm.trans again))
        obtain ⟨_, entryThere⟩ := Disk.entry_eq_ok_iff.mp entryEq
        have standing : disk.look spot = some entry.leaf :=
          Option.map_eq_some_iff.mpr ⟨entry, entryThere, rfl⟩
        rw [empty] at standing
        cases standing
      · rfl
    · obtain ⟨entry, entryEq, leafEq⟩ := entry_unfilled filling foundEq same
      rw [Option.getD_some, modeFor, entryEq]
      exact modeOf_eq_of_leaf_eq leafEq
  · cases found
  · rename_i cause _ foundEq
    cases found
    rw [Option.getD_none, modeFor]
    split
    · rename_i place entry entryEq
      obtain ⟨_, again, _⟩ := entry_filled filling empty entryEq
      rw [foundEq] at again
      cases again
    · rfl

end modeFor

/-! ## Replacing -/

/-- Moving the file of a slot onto a path overwrites the entry that the path names. -/
theorem overwrites_of_moveOnto {slot : Slot} {disk filled moved : Disk} {target : Path}
    {contents : File} (free : slot.Free disk target) (proper : target.Proper)
    (filling : Disk.Overwrites filled disk slot.spot contents)
    (done : moveOnto filled slot target = .ok moved) :
    Disk.isAmong disk.refusals.replacing target.text = false ∧
    ∃ place name, disk.holder target = .ok (place, some name) ∧
      disk.look (place ++ [name]) ≠ some .folder ∧
      Disk.Overwrites moved disk (place ++ [name]) contents := by
  simp only [moveOnto] at done
  split at done
  · cases done
  rename_i permitted
  rw [filling.refusals_eq, Bool.not_eq_true] at permitted
  split at done
  · cases done
  · cases done
  rename_i place name held
  have heldBefore := filling.overlays_self.holder_before proper held
  have apart := free.spot_ne proper heldBefore
  have restored := free.agrees_remove filling
  have there := Disk.folder_of_holder heldBefore
  have same : filled.look (place ++ [name]) = disk.look (place ++ [name]) := filling.look_of_ne apart
  split at done
  · cases done
  · rename_i entry movedEq notFolder
    cases done
    have leafEq : entry.leaf = .file contents := by
      have slotEq := filling.look_spot
      rw [Slot.spot, Disk.look_eq_named, movedEq, Option.map_some, Option.some.injEq] at slotEq
      exact slotEq
    have old : disk.look (place ++ [name]) ≠ some .folder := by
      rw [← same, Disk.look_eq_named, ne_eq, Option.map_eq_some_iff]
      rintro ⟨old, oldEq, oldLeaf⟩
      obtain ⟨inner, rfl⟩ := (Entry.leaf_eq_folder_iff old).mp oldLeaf
      exact notFolder inner oldEq
    refine ⟨permitted, place, name, heldBefore, old, ?_, restored.here_eq, restored.refusals_eq⟩
    intro other
    rw [Disk.look_put (restored.look_eq place ▸ there) (restored.look_eq _ ▸ old) (by simp [leafEq]),
      leafEq, restored.look_eq]
  · cases done

/-- Moving a file leaves the directories in order. -/
theorem ascending_moveOnto {slot : Slot} {disk moved : Disk} {target : Path}
    (ascending : disk.root.Ascending) (done : moveOnto disk slot target = .ok moved) :
    moved.root.Ascending := by
  simp only [moveOnto] at done
  split at done
  · cases done
  split at done
  · cases done
  · cases done
  split at done
  · cases done
  · rename_i entry movedEq _
    cases done
    exact Disk.ascending_put (Disk.ascending_remove ascending _ _) _ _
      (Directory.every_of_at? ascending movedEq)
  · cases done

section replace

variable [Codecs]

/-- One disk comes from another by replacing the file at a path: the entry that the path names is a file
of its own now, with the encoded text and the permission bits of what the path led to. -/
structure Replaces (path text charset : String) (before after : Disk) (place : Place) (name : String)
    (contents : File) : Prop where
  encoded : Codecs.encode charset text = .ok contents.bytes
  mode_eq : contents.mode = modeFor before (Path.tidy path)
  permitted : Disk.isAmong before.refusals.replacing (Path.tidy path) = false
  held : before.holder (.parse path) = .ok (place, some name)
  leaf : before.look (place ++ [name]) ≠ some .folder
  overwrites : after.Overwrites before (place ++ [name]) contents

/-- A replacement overwrites the entry that the path names by the encoded text, or it fails and
leaves the disk as it was. -/
theorem replace_cases {path text charset : String} {disk after : Disk} {result : Except Failure Unit}
    (replaced : replace path text charset disk = (result, after)) :
    (∃ failure, result = .error failure ∧ after.Agrees disk) ∨
      (result = .ok () ∧ ∃ place name contents,
        Replaces path text charset disk after place name contents) := by
  simp only [replace] at replaced
  split at replaced
  · cases replaced
    exact Or.inl ⟨_, rfl, .refl _⟩
  · cases replaced
    exact Or.inl ⟨_, rfl, .refl _⟩
  rename_i bytes encoded
  split at replaced
  · cases replaced
    exact Or.inl ⟨_, rfl, .refl _⟩
  split at replaced
  · cases replaced
    exact Or.inl ⟨_, rfl, .refl _⟩
  rename_i slot slotEq
  have free := free_of_freeSlot slotEq
  have fresh := free.overwrites_put ⟨bytes, freshMode⟩
  split at replaced
  · cases replaced
    exact Or.inl ⟨_, rfl, free.agrees_remove fresh⟩
  rename_i mode modeEq
  have ready := free.overwrites_put_again fresh ⟨bytes, mode.getD freshMode⟩
  split at replaced
  · cases replaced
    exact Or.inl ⟨_, rfl, free.agrees_remove ready⟩
  · rename_i moved movedEq
    cases replaced
    obtain ⟨permitted, place, name, held, old, overwrites⟩ :=
      overwrites_of_moveOnto free (Path.parse_proper path) ready movedEq
    have takenOver := modeFor_eq_of_modeAt fresh free.empty rfl modeEq
    exact Or.inr ⟨rfl, place, name, _, encoded, takenOver, permitted, held, old, overwrites⟩

/-- Replacing a file leaves the directories in order. -/
theorem ascending_replace {disk : Disk} (ascending : disk.root.Ascending) (path text charset : String) :
    (replace path text charset disk).2.root.Ascending := by
  have filled : ∀ {d : Disk}, d.root.Ascending → ∀ (slot : Slot) (contents : File),
      (d.put slot.place slot.name (.file contents)).root.Ascending :=
    fun ascending slot contents => Disk.ascending_put ascending slot.place slot.name trivial
  simp only [replace]
  split
  · exact ascending
  · exact ascending
  rename_i bytes _
  split
  · exact ascending
  split
  · exact ascending
  rename_i slot _
  have fresh := filled ascending slot ⟨bytes, freshMode⟩
  split
  · exact Disk.ascending_remove fresh _ _
  rename_i mode _
  have ready := filled fresh slot ⟨bytes, mode.getD freshMode⟩
  split
  · exact Disk.ascending_remove ready _ _
  · rename_i moved movedEq
    exact ascending_moveOnto ready movedEq

end replace

end TextFile

namespace Disk.Reads

variable {disk : Disk} {path : String} {links : Nat} {place : Place} {contents : File}

theorem leaf (reads : disk.Reads path links place contents) : disk.look place ≠ some .folder := by
  simp [reads.found]

/-- A path that leads to a file leads there through its entry. -/
theorem exists_holder (reads : disk.Reads path links place contents) :
    ∃ holder name m n, links = m + n ∧
      disk.holder (.parse path) = .ok (holder, some name) ∧
      Route disk.look ((Path.parse path).base disk.here) (Path.parse path).names.dropLast m holder ∧
      Route disk.look holder [name] n place :=
  exists_holder_of_leads (Path.parse_proper path) reads.short reads.few reads.leads reads.named
    reads.leaf

theorem target?_eq (reads : disk.Reads path links place contents) :
    disk.target? path = some place := by
  obtain ⟨holder, name, m, n, linksEq, held, _, last⟩ := reads.exists_holder
  have few := reads.few
  exact target?_eq_some_iff.mpr ⟨holder, name, held, n, by omega, last⟩

/-- A file that is read now, and is none of the new ones, was read before. -/
theorem before {first : Disk} {spots : List Place} (reads : disk.Reads path links place contents)
    (change : Overlays disk first spots) (elsewhere : place ∉ spots) :
    first.Reads path links place contents where
  usable := reads.usable
  permitted := change.refusals_eq ▸ reads.permitted
  short := reads.short
  named := reads.named
  few := reads.few
  leads := change.leads_before reads.leads elsewhere
  found := change.look_eq place elsewhere ▸ reads.found

/-- After files have been put where entries led to no directory, a file that was read is read still,
or a new one instead of it. -/
theorem after {later : Disk} {spots : List Place} (reads : disk.Reads path links place contents)
    (refiles : Refiles later disk spots) :
    (place ∉ spots ∧ later.Reads path links place contents) ∨
      ∃ spot ∈ spots, ∃ fewer new, later.Reads path fewer spot new ∧
        ∃ further, disk.EntryLeads spot further place := by
  have permitted : isAmong later.refusals.reading path = false :=
    refiles.refusals_eq.symm ▸ reads.permitted
  have start : (Path.parse path).base later.here = (Path.parse path).base disk.here := by
    rw [refiles.here_eq]
  rcases refiles.route_after reads.leads with kept | ⟨spot, mem, fewer, few, ends, leads⟩
  · have laterLeads : later.Leads (.parse path) links place := by rwa [Leads, start]
    by_cases mem : place ∈ spots
    · obtain ⟨new, found⟩ := refiles.file place mem
      obtain ⟨further, target, entryLeads, leaf⟩ := refiles.old place mem
      obtain rfl := entryLeads.eq_of_file leaf reads.found
      exact Or.inr ⟨target, mem, links, new,
        ⟨reads.usable, permitted, reads.short, reads.named, reads.few, laterLeads, found⟩,
        further, entryLeads⟩
    · have found : later.look place = some (.file contents) :=
        (refiles.look_eq place mem).trans reads.found
      exact Or.inl ⟨mem, reads.usable, permitted, reads.short, reads.named, reads.few, laterLeads, found⟩
  · obtain ⟨new, found⟩ := refiles.file spot mem
    have laterLeads : later.Leads (.parse path) fewer spot := by rwa [Leads, start]
    exact Or.inr ⟨spot, mem, fewer, new, ⟨reads.usable, permitted, reads.short, reads.named,
      Nat.le_trans few reads.few, laterLeads, found⟩, leads⟩

end Disk.Reads

/-! ## The text behind a path -/

/-- A path leads to a file at a place, and the file is read as a text. -/
def Disk.Shows (disk : Disk) (path : String) (place : Place) (text : String) : Prop :=
  ∃ links contents, disk.Reads path links place contents ∧
    TextFile.decode contents.bytes = .ok text.toList

namespace Disk.Shows

variable {disk : Disk} {path other text text' : String} {place place' : Place}

theorem of_read (readEq : TextFile.read path disk = .ok text) : ∃ place, disk.Shows path place text := by
  obtain ⟨links, place, contents, reads, decoded⟩ := TextFile.read_eq_ok_iff.mp readEq
  exact ⟨place, links, contents, reads, decoded⟩

theorem read_eq (shows : disk.Shows path place text) : TextFile.read path disk = .ok text := by
  obtain ⟨links, contents, reads, decoded⟩ := shows
  exact TextFile.read_eq_ok_iff.mpr ⟨links, place, contents, reads, decoded⟩

theorem leaf (shows : disk.Shows path place text) : disk.look place ≠ some .folder := by
  obtain ⟨_, _, reads, _⟩ := shows
  exact reads.leaf

/-- A path that shows a text names an entry that leads to it. -/
theorem entryLeads (shows : disk.Shows path place text) {holder : Place} {name : String}
    (held : disk.holder (.parse path) = .ok (holder, some name)) :
    ∃ links, disk.EntryLeads (holder ++ [name]) links place := by
  obtain ⟨_, _, reads, _⟩ := shows
  obtain ⟨holder', name', _, n, _, held', _, last⟩ := reads.exists_holder
  obtain ⟨rfl, rfl⟩ : holder = holder' ∧ name = name' := by
    simpa using held.symm.trans held'
  exact ⟨n, holder, name, rfl, last⟩

/-- Paths to one place show one text. -/
theorem text_eq (shows : disk.Shows path place text) (also : disk.Shows other place text') :
    text = text' := by
  obtain ⟨_, contents, reads, decoded⟩ := shows
  obtain ⟨_, contents', reads', decoded'⟩ := also
  have same := reads.found.symm.trans reads'.found
  rw [Option.some.injEq, Leaf.file.injEq] at same
  rw [same, decoded', Except.ok.injEq, String.toList_inj] at decoded
  exact decoded.symm

/-- A path shows one text at one place. -/
theorem unique (shows : disk.Shows path place text) (again : disk.Shows path place' text') :
    place = place' ∧ text = text' := by
  have samePlace : place = place' := by
    obtain ⟨_, _, reads, _⟩ := shows
    obtain ⟨_, _, reads', _⟩ := again
    exact (reads.leads.deterministic reads'.leads).2
  subst place'
  exact ⟨rfl, shows.text_eq again⟩

end Disk.Shows

end StringAudit
