import StringAudit.Proofs.Collection
import StringAudit.Proofs.Disk.Astray
import StringAudit.Proofs.TextFile

/-!
# Files that change elsewhere

Other files are replaced, and the path of a file takes no notice: it leads to the same file with the same
contents, and what can be read and replaced there is the same as before.  If it leads nowhere, it does so
for the same cause, except when it passes too many links.
-/

namespace StringAudit

namespace Disk

/-- At each of some spots stands a file, or a link to one, to which a path does not lead. -/
def Elsewhere (disk : Disk) (p : Path) (spots : List Place) : Prop :=
  ∀ spot ∈ spots, ∃ links goal contents, disk.EntryLeads spot links goal ∧
    disk.look goal = some (.file contents) ∧ ∀ n, ¬ disk.Leads p n goal

section Leads

variable {after before disk : Disk} {spots : List Place} {p : Path} {links : Nat} {goal place : Place}
  {contents : File} {cause : Cause}

/-- The path does not lead to a new file. -/
theorem Elsewhere.notMem (elsewhere : before.Elsewhere p spots) (change : Overlays after before spots)
    (named : p.names ≠ []) (leads : after.Leads p links goal) : goal ∉ spots := by
  intro mem
  obtain ⟨further, old, _, ⟨holder, name, rfl, last⟩, _, not⟩ := elsewhere goal mem
  obtain ⟨piece, rest, namesEq⟩ := List.exists_cons_of_ne_nil named
  have away : p.base after.here ≠ holder ++ [name] := by
    rw [Leads, namesEq] at leads
    rintro same
    exact change.notMem_of_folder leads.folder_of_cons (same ▸ mem)
  have whole := (change.route_before_iff mem leads away (links + further) old).mpr ⟨further, rfl, last⟩
  rw [change.here_eq] at whole
  exact not _ whole

/-- The path leads to the same file. -/
theorem Elsewhere.leads_file_iff (elsewhere : before.Elsewhere p spots)
    (refiles : Refiles after before spots) (named : p.names ≠ []) :
    after.Leads p links goal ∧ after.look goal = some (.file contents) ↔
      before.Leads p links goal ∧ before.look goal = some (.file contents) := by
  constructor
  · rintro ⟨leads, found⟩
    have apart := elsewhere.notMem refiles.toOverlays named leads
    exact ⟨refiles.leads_before leads apart, refiles.look_eq goal apart ▸ found⟩
  · rintro ⟨leads, found⟩
    have leaf : before.look goal ≠ some .folder := by simp [found]
    rcases refiles.route_after leads with kept | ⟨spot, mem, _, _, _, _, entryLeads⟩
    · have apart : goal ∉ spots := by
        intro mem
        obtain ⟨_, old, _, entryLeads, oldFound, not⟩ := elsewhere goal mem
        obtain rfl := entryLeads.eq_of_file (by simp [oldFound]) found
        exact not links leads
      refine ⟨?_, (refiles.look_eq goal apart).trans found⟩
      rwa [Leads, refiles.here_eq]
    · obtain ⟨_, old, _, oldLeads, _, not⟩ := elsewhere spot mem
      obtain rfl := entryLeads.deterministic oldLeads
      exact absurd leads (not links)

/-! ### Entries -/

/-- A path that leads to a file has a name. -/
theorem entry_text_eq_file_iff (proper : p.Proper) :
    disk.entry p.text = .ok (place, .file contents) ↔
      p.names ≠ [] ∧ p.text.utf8ByteSize ≤ maxPathBytes ∧
        ∃ links ≤ maxLinks, disk.Leads p links place ∧ disk.look place = some (.file contents) := by
  rw [entry_eq_file_iff, resolve_text_eq_ok_iff proper]
  constructor
  · rintro ⟨⟨short, ⟨links, few, leads⟩, top⟩, found⟩
    refine ⟨fun nameless => ?_, short, links, few, leads, found⟩
    cases found.symm.trans (top nameless)
  · rintro ⟨named, short, links, few, leads, found⟩
    exact ⟨⟨short, ⟨links, few, leads⟩, fun nameless => absurd nameless named⟩, found⟩

theorem entry_text_ne_link (proper : p.Proper) {target : String} :
    disk.entry p.text ≠ .ok (place, .link target) := by
  intro found
  obtain ⟨resolved, there⟩ := entry_eq_ok_iff.mp found
  have standing : disk.look place = some (.link target) :=
    Option.map_eq_some_iff.mpr ⟨.link target, there, rfl⟩
  rcases solid_of_resolve proper resolved with folder | ⟨_, file⟩
  · cases standing.symm.trans folder
  · cases standing.symm.trans file

theorem entry_text_eq_error_iff (proper : p.Proper) :
    disk.entry p.text = .error cause ↔ disk.resolve p.text = .error cause := by
  cases resolved : disk.resolve p.text with
  | error other => simp [Disk.entry, resolved, bind, Except.bind]
  | ok goal =>
      refine iff_of_false ?_ (by simp)
      have some : disk.root.at? goal ≠ none := by
        intro absent
        have standing : disk.look goal = none := Option.map_eq_none_iff.mpr absent
        rcases solid_of_resolve proper resolved with folder | ⟨_, file⟩
        · cases standing.symm.trans folder
        · cases standing.symm.trans file
      obtain ⟨entry, found⟩ := Option.ne_none_iff_exists'.mp some
      rw [entry_eq_ok_iff.mpr ⟨resolved, found⟩]
      simp

theorem Elsewhere.entry_file_iff (elsewhere : before.Elsewhere p spots)
    (refiles : Refiles after before spots) (proper : p.Proper) :
    after.entry p.text = .ok (place, .file contents) ↔
      before.entry p.text = .ok (place, .file contents) := by
  rw [entry_text_eq_file_iff proper, entry_text_eq_file_iff proper]
  refine and_congr_right fun named => and_congr_right fun _ => ?_
  simp only [elsewhere.leads_file_iff refiles named]

theorem Refiles.entry_folder (refiles : Refiles after before spots) {path : String}
    {inner : Directory} (found : before.entry path = .ok (place, .folder inner)) :
    ∃ now, after.entry path = .ok (place, .folder now) := by
  obtain ⟨resolved, there⟩ := entry_eq_ok_iff.mp found
  obtain ⟨resolvedAfter, folder⟩ := refiles.resolve_folder_iff.mpr
    ⟨resolved, (before.root.look_eq_folder_iff place).mpr ⟨inner, there⟩⟩
  obtain ⟨now, thereAfter⟩ := (after.root.look_eq_folder_iff place).mp folder
  exact ⟨now, entry_eq_ok_iff.mpr ⟨resolvedAfter, thereAfter⟩⟩

/-- The bytes behind the path are the same, and so is the fault if there are none. -/
theorem Elsewhere.readBytes_eq (elsewhere : before.Elsewhere p spots)
    (refiles : Refiles after before spots) (proper : p.Proper)
    (few : before.entry p.text ≠ .error .tooManyLinks) :
    after.readBytes p.text = before.readBytes p.text := by
  rw [readBytes, readBytes]
  cases found : before.entry p.text with
  | error cause =>
      have failed := (entry_text_eq_error_iff proper).mp found
      have few : cause ≠ .tooManyLinks := fun same => few (same ▸ found)
      rw [(entry_text_eq_error_iff proper).mpr (refiles.resolve_error failed few)]
  | ok held =>
      obtain ⟨place, entry⟩ := held
      cases entry with
      | file contents => rw [(elsewhere.entry_file_iff refiles proper).mpr found]
      | link target => exact absurd found (entry_text_ne_link proper)
      | folder inner =>
          obtain ⟨now, foundAfter⟩ := refiles.entry_folder found
          rw [foundAfter]

/-! ### Directories of paths -/

theorem holder_eq_ok_iff_of_folder {held : Place × Option String} :
    disk.holder p = .ok held ↔
      disk.resolve p.parent.text = .ok held.1 ∧ disk.look held.1 = some .folder ∧
        held.2 = if p.names = [] ∨ p.name = ".." then none else some p.name := by
  rw [holder, Except.bind_eq_ok_iff]
  constructor
  · rintro ⟨goal, resolved, found⟩
    split at found
    · rename_i d thereEq
      cases found
      exact ⟨resolved, (disk.root.look_eq_folder_iff goal).mpr ⟨d, thereEq⟩, rfl⟩
    · cases found
  · obtain ⟨goal, named⟩ := held
    rintro ⟨resolved, there, rfl⟩
    obtain ⟨d, thereEq⟩ := (disk.root.look_eq_folder_iff goal).mp there
    refine ⟨goal, resolved, ?_⟩
    rw [thereEq]
    rfl

/-- A path is in the same directory. -/
theorem Refiles.holder_iff (refiles : Refiles after before spots) {held : Place × Option String} :
    after.holder p = .ok held ↔ before.holder p = .ok held := by
  rw [holder_eq_ok_iff_of_folder, holder_eq_ok_iff_of_folder, ← and_assoc, ← and_assoc,
    refiles.resolve_folder_iff]

theorem holder_eq_error_iff :
    disk.holder p = .error cause ↔
      disk.resolve p.parent.text = .error cause ∨
        ∃ goal, disk.resolve p.parent.text = .ok goal ∧ disk.look goal ≠ some .folder ∧
          cause = .notDirectory := by
  rw [holder]
  cases disk.resolve p.parent.text with
  | error other => simp [bind, Except.bind]
  | ok goal =>
      simp only [bind, Except.bind]
      split
      · rename_i d thereEq
        have there := (disk.root.look_eq_folder_iff goal).mpr ⟨d, thereEq⟩
        refine iff_of_false (by simp [pure, Except.pure]) ?_
        rintro (failed | ⟨_, same, leaf, _⟩)
        · cases failed
        · cases same
          exact leaf there
      · rename_i other
        have leaf : disk.look goal ≠ some .folder := by
          intro there
          obtain ⟨d, thereEq⟩ := (disk.root.look_eq_folder_iff goal).mp there
          exact other d thereEq
        constructor
        · intro failed
          cases failed
          exact Or.inr ⟨goal, rfl, leaf, rfl⟩
        · rintro (failed | ⟨_, _, _, rfl⟩)
          · cases failed
          · rfl

/-- A path that led to what is no directory still does. -/
theorem Refiles.resolve_leaf (refiles : Refiles after before spots) {path : String}
    (resolved : before.resolve path = .ok goal) (leaf : before.look goal ≠ some .folder) :
    ∃ now, after.resolve path = .ok now ∧ after.look now ≠ some .folder := by
  obtain ⟨nonempty, short, links, few, route⟩ := resolve_eq_ok_iff.mp resolved
  rcases refiles.route_after route with kept | ⟨spot, mem, fewer, less, ends, _⟩
  · refine ⟨goal, resolve_eq_ok_iff.mpr ⟨nonempty, short, links, few, ?_⟩, refiles.leaf_after leaf⟩
    rwa [refiles.here_eq]
  · refine ⟨spot, resolve_eq_ok_iff.mpr ⟨nonempty, short, fewer, Nat.le_trans less few, ?_⟩,
      refiles.leaf mem⟩
    rwa [refiles.here_eq]

/-- A path that is in no directory is in none for the same cause, unless there were too many links. -/
theorem Refiles.holder_error (refiles : Refiles after before spots)
    (failed : before.holder p = .error cause) (few : cause ≠ .tooManyLinks) :
    after.holder p = .error cause := by
  rw [holder_eq_error_iff] at failed ⊢
  rcases failed with nowhere | ⟨goal, resolved, leaf, rfl⟩
  · exact Or.inl (refiles.resolve_error nowhere few)
  · obtain ⟨now, resolvedAfter, leafAfter⟩ := refiles.resolve_leaf resolved leaf
    exact Or.inr ⟨now, resolvedAfter, leafAfter, rfl⟩

end Leads

end Disk

namespace TextFile

variable {after before disk : Disk} {spots : List Place} {path text charset : String}

/-! ## Reading -/

/-- What is read is the same, unless the path passed too many links. -/
theorem read_eq_elsewhere (elsewhere : before.Elsewhere (.parse path) spots)
    (refiles : Disk.Refiles after before spots) (few : before.entry (Path.tidy path) ≠ .error .tooManyLinks) :
    read path after = read path before := by
  have bytesEq := elsewhere.readBytes_eq refiles (Path.parse_proper path) few
  simp only [read, refiles.refusals_eq, Path.tidy, bytesEq]

theorem entry_of_read (readEq : read path disk = .ok text) :
    ∃ place contents, disk.entry (Path.tidy path) = .ok (place, .file contents) := by
  obtain ⟨links, place, contents, reads, _⟩ := read_eq_ok_iff.mp readEq
  exact ⟨place, contents, (Disk.entry_text_eq_file_iff (Path.parse_proper path)).mpr
    ⟨reads.named, reads.short, links, reads.few, reads.leads, reads.found⟩⟩

/-- The same texts are read. -/
theorem read_elsewhere_iff (elsewhere : before.Elsewhere (.parse path) spots)
    (refiles : Disk.Refiles after before spots) :
    read path after = .ok text ↔ read path before = .ok text := by
  by_cases few : before.entry (Path.tidy path) = .error .tooManyLinks
  · refine iff_of_false ?_ ?_
    · intro readEq
      obtain ⟨place, contents, found⟩ := entry_of_read readEq
      have foundBefore := (elsewhere.entry_file_iff refiles (Path.parse_proper path)).mp found
      cases few.symm.trans foundBefore
    · intro readEq
      obtain ⟨place, contents, found⟩ := entry_of_read readEq
      cases few.symm.trans found
  · rw [read_eq_elsewhere elsewhere refiles few]

/-- What is read is the same, or else the path passed too many links; then nothing is read either. -/
theorem read_elsewhere (elsewhere : before.Elsewhere (.parse path) spots)
    (refiles : Disk.Refiles after before spots) (usable : Disk.isUsable path = true) :
    read path after = read path before ∨
      (∃ shown, read path before =
        .error (.unreadable path (Disk.Fault.message ⟨.tooManyLinks, shown, none⟩))) ∧
        ∃ reason, read path after = .error (.unreadable path reason) := by
  by_cases many : before.entry (Path.tidy path) = .error .tooManyLinks
  · by_cases refused : Disk.isAmong before.refusals.reading path = true
    · left
      simp only [read, refiles.refusals_eq, refused, if_true]
    · right
      have unread : before.readBytes (Path.tidy path) = .error ⟨.tooManyLinks, Path.tidy path, none⟩ := by
        rw [Disk.readBytes, many]
      refine ⟨⟨Path.tidy path, ?_⟩, ?_⟩
      · simp only [read, usable, Bool.not_true, if_neg Bool.false_ne_true, if_neg refused, unread]
      · cases readEq : read path after with
        | ok text =>
            obtain ⟨place, contents, found⟩ :=
              entry_of_read ((read_elsewhere_iff elsewhere refiles).mp readEq)
            cases many.symm.trans found
        | error failure =>
            obtain ⟨reason, rfl⟩ := reason_of_read usable readEq
            exact ⟨reason, rfl⟩
  · exact Or.inl (read_eq_elsewhere elsewhere refiles many)

/-! ## Replacing -/

theorem named_isNone_elsewhere (refiles : Disk.Refiles after before spots) (place : Place) (name : String) :
    (after.named place name).isNone = (before.named place name).isNone := by
  have standing : ∀ d : Disk, (d.named place name).isNone = true ↔ d.look (place ++ [name]) = none := by
    intro d
    rw [Disk.look_eq_named, Option.map_eq_none_iff, Option.isNone_iff_eq_none]
  rw [Bool.eq_iff_iff, standing, standing]
  by_cases mem : place ++ [name] ∈ spots
  · obtain ⟨_, _, entryLeads, leaf⟩ := refiles.old _ mem
    obtain ⟨contents, file⟩ := refiles.file _ mem
    exact iff_of_false (by simp [file]) (entryLeads.look_ne_none leaf)
  · rw [refiles.look_eq _ mem]

/-- There is the same free slot, or none, unless the path of its directory passed too many links: then
there is none either. -/
theorem freeSlot_elsewhere (refiles : Disk.Refiles after before spots) (target : Path) :
    freeSlot after target = freeSlot before target ∨
      (∃ shown, freeSlot before target = .error ⟨.tooManyLinks, shown, none⟩) ∧
        ∃ fault, freeSlot after target = .error fault := by
  have absoluteEq : after.absolute target.parent = before.absolute target.parent := by
    rw [Disk.absolute, Disk.absolute, refiles.here_eq]
  simp only [freeSlot, absoluteEq]
  cases held : before.holder
      { before.absolute target.parent with
        names := (before.absolute target.parent).names ++ [temporaryName target.name 0] } with
  | ok found =>
      left
      rw [refiles.holder_iff.mpr held]
      simp only [named_isNone_elsewhere refiles]
  | error cause =>
      by_cases many : cause = .tooManyLinks
      · subst cause
        refine Or.inr ⟨⟨_, rfl⟩, ?_⟩
        split
        · exact ⟨_, rfl⟩
        · rename_i found
          cases held.symm.trans (refiles.holder_iff.mp found)
      · rw [refiles.holder_error held many]
        exact Or.inl rfl

section Replacing

variable {filled : Disk} {slot : Slot} {target : Path} {contents old : File} {goal : Place}

/-- A temporary file can be moved onto a path that leads to a file, if the disk does not refuse. -/
theorem exists_moveOnto (free : slot.Free disk target) (proper : target.Proper)
    (filling : Disk.Overwrites filled disk slot.spot contents)
    (found : disk.entry target.text = .ok (goal, .file old))
    (permitted : Disk.isAmong disk.refusals.replacing target.text = false) :
    ∃ moved, moveOnto filled slot target = .ok moved := by
  obtain ⟨named, short, links, few, leads, standing⟩ := (Disk.entry_text_eq_file_iff proper).mp found
  have leaf : disk.look goal ≠ some .folder := by simp [standing]
  obtain ⟨place, name, _, _, _, held, _, last⟩ :=
    Disk.exists_holder_of_leads proper short few leads named leaf
  have entryLeads : disk.EntryLeads (place ++ [name]) _ goal := ⟨place, name, rfl, last⟩
  have stands := entryLeads.look_ne_none leaf
  have apart : place ++ [name] ≠ slot.spot := fun same => stands (same ▸ free.empty)
  have kept : ∀ place, disk.look place ≠ none → filled.look place = disk.look place := by
    intro place some
    exact filling.look_of_ne fun same => some (same ▸ free.empty)
  have heldStill : filled.holder target = .ok (place, some name) := by
    obtain ⟨front, namesEq, notUp, shortParent, ⟨m, fewFront, route⟩, there⟩ :=
      (Disk.holder_eq_ok_iff proper).mp held
    refine (Disk.holder_eq_ok_iff proper).mpr ⟨front, namesEq, notUp, shortParent, ⟨m, fewFront, ?_⟩, ?_⟩
    · rw [filling.here_eq]
      exact route.mono kept
    · rw [kept place (by simp [there]), there]
  have slotNamed : (filled.named slot.place slot.name).map Entry.leaf = some (.file contents) :=
    filling.look_spot
  obtain ⟨moved, movedEq, -⟩ := Option.map_eq_some_iff.mp slotNamed
  have notFolder : ∀ inner, filled.named place name ≠ some (.folder inner) := by
    intro inner folderEq
    have folder : filled.look (place ++ [name]) = some .folder := by
      rw [Disk.look_eq_named, folderEq]
      rfl
    exact entryLeads.leaf leaf ((kept _ stands).symm.trans folder)
  simp only [moveOnto, filling.refusals_eq, permitted, if_neg Bool.false_ne_true, heldStill, movedEq]
  exact ⟨_, rfl⟩

theorem moveOnto_refused (slot : Slot) (target : Path)
    (refused : Disk.isAmong disk.refusals.replacing target.text = true) :
    moveOnto disk slot target = .error ⟨.full, target.text, none⟩ := by
  rw [moveOnto]
  exact if_pos refused

/-- Replacing a file that a path leads to fails only if the text cannot be encoded, there is no free slot,
or the disk refuses. -/
theorem replace_fst (usable : Disk.isUsable path = true)
    (found : disk.entry (Path.tidy path) = .ok (goal, .file old)) :
    (replace path text charset disk).1 =
      match Codecs.encode charset text with
      | .error .unusableName => .error (.breakdown .unusableCharset)
      | .error fault => .error (.unwritable path fault.message)
      | .ok _ =>
        match freeSlot disk (.parse path) with
        | .error fault => .error (.unwritable path fault.message)
        | .ok _ =>
          if Disk.isAmong disk.refusals.replacing (Path.tidy path) then
            .error (.unwritable path (Disk.Fault.message ⟨.full, Path.tidy path, none⟩))
          else .ok () := by
  cases encoded : Codecs.encode charset text with
  | error fault => cases fault <;> simp only [replace, encoded]
  | ok bytes =>
      simp only [replace, encoded, usable, Bool.not_true, if_neg Bool.false_ne_true]
      cases slotEq : freeSlot disk (.parse path) with
      | error fault => rfl
      | ok slot =>
          have free := free_of_freeSlot slotEq
          have fresh := free.overwrites_put ⟨bytes, freshMode⟩
          obtain ⟨now, nowEq, -⟩ := entry_filled fresh free.empty found
          have modeEq : modeAt (disk.put slot.place slot.name (.file ⟨bytes, freshMode⟩))
              (Path.parse path).text = .ok (some (modeOf now)) := by
            rw [modeAt, show (Path.parse path).text = Path.tidy path from rfl, nowEq]
          simp only [modeEq]
          have ready := free.overwrites_put_again fresh ⟨bytes, modeOf now⟩
          by_cases refused : Disk.isAmong disk.refusals.replacing (Path.tidy path) = true
          · rw [if_pos refused]
            rw [← ready.refusals_eq] at refused
            have movedEq := moveOnto_refused slot (.parse path) refused
            simp only [Option.getD_some, movedEq]
            rfl
          · rw [if_neg refused]
            rw [Bool.not_eq_true] at refused
            obtain ⟨moved, movedEq⟩ :=
              exists_moveOnto free (Path.parse_proper path) ready found refused
            simp only [Option.getD_some, movedEq]

/-- A replacement succeeds or fails in the same way, unless the path of the directory for temporary files
passed too many links: then it fails all the same. -/
theorem replace_elsewhere (elsewhere : before.Elsewhere (.parse path) spots)
    (refiles : Disk.Refiles after before spots) (usable : Disk.isUsable path = true)
    (found : before.entry (Path.tidy path) = .ok (goal, .file old)) :
    (replace path text charset after).1 = (replace path text charset before).1 ∨
      (∃ shown, (replace path text charset before).1 =
        .error (.unwritable path (Disk.Fault.message ⟨.tooManyLinks, shown, none⟩))) ∧
        ∃ reason, (replace path text charset after).1 = .error (.unwritable path reason) := by
  have foundAfter : after.entry (Path.tidy path) = .ok (goal, .file old) :=
    (elsewhere.entry_file_iff refiles (Path.parse_proper path)).mpr found
  rw [replace_fst usable found, replace_fst usable foundAfter, refiles.refusals_eq]
  cases Codecs.encode charset text with
  | error fault =>
      left
      cases fault <;> simp only
  | ok bytes =>
      rcases freeSlot_elsewhere refiles (.parse path) with same | ⟨⟨shown, looped⟩, fault, none⟩
      · left
        simp only [same]
      · right
        simp only [looped, none]
        exact ⟨⟨shown, rfl⟩, _, rfl⟩

/-- Two replacements of the file make it the same new file in the same place. -/
theorem Replaces.unique {later alone : Disk} {place place' : Place} {name name' : String}
    {new new' : File} (elsewhere : before.Elsewhere (.parse path) spots)
    (refiles : Disk.Refiles after before spots)
    (found : before.entry (Path.tidy path) = .ok (goal, .file old))
    (replaces : Replaces path text charset after later place name new)
    (replacesAlone : Replaces path text charset before alone place' name' new') :
    place = place' ∧ name = name' ∧ new = new' := by
  have foundAfter : after.entry (Path.tidy path) = .ok (goal, .file old) :=
    (elsewhere.entry_file_iff refiles (Path.parse_proper path)).mpr found
  have held := (refiles.holder_iff.mp replaces.held).symm.trans replacesAlone.held
  obtain ⟨rfl, rfl⟩ : place = place' ∧ name = name' := by simpa using held
  have bytesEq := Except.ok.inj (replaces.encoded.symm.trans replacesAlone.encoded)
  have modeEq : new.mode = new'.mode := by
    rw [replaces.mode_eq, replacesAlone.mode_eq, modeFor, modeFor, found, foundAfter]
  cases new
  cases new'
  cases bytesEq
  cases modeEq
  exact ⟨rfl, rfl, rfl⟩

end Replacing

end TextFile

end StringAudit
