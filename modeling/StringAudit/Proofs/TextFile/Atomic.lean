import StringAudit.Proofs.Collection
import StringAudit.Proofs.Delivery
import StringAudit.Proofs.TextFile

/-!
# Replacing a file is atomic

A replacement either happens as a whole or leaves no trace.  If it fails, at whatever step, the disk is
the one from before, down to the order of the entries.  If it succeeds, the entry that the path names is a
file with the encoded text, and nothing else is different: not what a link in its place led to, and not a
file that has the name of a temporary one.
-/

namespace StringAudit

namespace Directory

/-- Directories in order are the same if the same stands at every place in them. -/
theorem eq_of_look_eq {d other : Directory} (ascending : d.Ascending) (otherAscending : other.Ascending)
    (same : ∀ place, other.look place = d.look place) : other = d := by
  have refiled : Refiled [] [] d other := fun place => Or.inl (same place)
  clear same
  generalize ([] : Place) = place at refiled
  induction d using Directory.consInduction generalizing place other with
  | empty => exact refiled.eq_empty
  | cons name entry rest ihInner ih =>
      obtain ⟨newEntry, newRest, rfl, newEvery, newRestAscending, leaf, restRefiled⟩ :=
        refiled.exists_cons_of_cons ascending otherAscending
      obtain ⟨_, every, restAscending⟩ := every_cons.mp ascending
      obtain rfl := ih restAscending newRestAscending place restRefiled
      have leafEq : newEntry.leaf = entry.leaf := by simpa [Leaf.Refiled] using leaf
      congr 1
      cases entry with
      | file => cases newEntry <;> cases leafEq; rfl
      | link => cases newEntry <;> cases leafEq; rfl
      | folder inner =>
          cases newEntry with
          | folder newInner => exact congrArg _ (ihInner inner rfl every newEvery _ refiled.inner)
          | _ => cases leafEq

end Directory

/-- Disks that agree are the same if their directories are in order. -/
theorem Disk.Agrees.eq {disk other : Disk} (agrees : disk.Agrees other) (ascending : disk.root.Ascending)
    (otherAscending : other.root.Ascending) : disk = other := by
  cases disk
  cases other
  obtain rfl := agrees.here_eq
  obtain rfl := agrees.refusals_eq
  obtain rfl := Directory.eq_of_look_eq otherAscending ascending agrees.look_eq
  rfl

namespace TextFile

variable {path text charset : String} {before after : Disk} {place : Place} {name : String}
  {contents : File}

/-- If neither the path nor the name of the character set holds the character U+0000, a replacement that
fails has a reason. -/
theorem reason_of_replace {failure : Failure} (usable : Disk.isUsable path = true)
    (named : '\x00' ∉ charset.toList)
    (replaced : replace path text charset before = (.error failure, after)) :
    ∃ reason, failure = .unwritable path reason := by
  simp only [replace] at replaced
  split at replaced
  · rename_i unusable
    exact absurd unusable (Charset.encodeNamed_ne_unusableName named)
  · cases replaced
    exact ⟨_, rfl⟩
  rw [usable, Bool.not_true, if_neg Bool.false_ne_true] at replaced
  split at replaced
  · cases replaced
    exact ⟨_, rfl⟩
  split at replaced
  · cases replaced
    exact ⟨_, rfl⟩
  split at replaced
  · cases replaced
    exact ⟨_, rfl⟩
  · cases replaced

/-- A replacement that fails leaves the disk exactly as it was.  One that succeeds makes the entry that
the path names a file with the encoded text and the permission bits of what the path led to; a file
behind a link in its place is what it was, and so is every other entry. -/
theorem replace_atomic {result : Except Failure Unit}
    (replaced : replace path text charset before = (result, after)) :
    (∃ failure, result = .error failure ∧ after.Agrees before ∧
      (before.root.Ascending → after = before) ∧
      (Disk.isUsable path = true → '\x00' ∉ charset.toList →
        ∃ reason, failure = .unwritable path reason)) ∨
    (result = .ok () ∧ ∃ spot bytes, before.entryPlace? path = some spot ∧
      Charset.encodeNamed charset text = .ok bytes ∧
      after.look spot = some (.file ⟨bytes, modeFor before (Path.tidy path)⟩) ∧
      (∀ target goal old, before.look spot = some (.link target) →
        before.resolve (Path.tidy path) = .ok goal → before.look goal = some (.file old) →
        after.look goal = some (.file old)) ∧
      (∀ place, place ≠ spot → after.look place = before.look place) ∧
      before.look spot ≠ some .folder ∧
      Disk.isAmong before.refusals.replacing (Path.tidy path) = false ∧
      after.here = before.here ∧ after.refusals = before.refusals) := by
  rcases replace_cases replaced with ⟨failure, rfl, agrees⟩ | ⟨rfl, place, name, contents, replaces⟩
  · refine Or.inl ⟨failure, rfl, agrees, fun ascending => ?_, fun usable named => ?_⟩
    · have afterAscending := ascending_replace ascending path text charset
      rw [replaced] at afterAscending
      exact agrees.eq afterAscending ascending
    · exact reason_of_replace usable named replaced
  · have change := replaces.overwrites
    have contentsEq : contents = ⟨contents.bytes, modeFor before (Path.tidy path)⟩ :=
      replaces.mode_eq ▸ rfl
    refine Or.inr ⟨rfl, place ++ [name], contents.bytes,
      Disk.entryPlace?_eq_some_iff.mpr ⟨place, name, replaces.held, rfl⟩, replaces.encoded,
      contentsEq ▸ change.look_spot, ?_, fun other elsewhere => change.look_of_ne elsewhere,
      replaces.leaf, replaces.permitted, change.here_eq, change.refusals_eq⟩
    intro target goal old link _ found
    rw [change.look_of_ne, found]
    rintro rfl
    cases link.symm.trans found

/-- A link to a file elsewhere, beside a file with the name of a temporary one. -/
def linkDisk : Disk where
  root := .folder "app"
    (.file ".ui.strings.00000000.tmp" ⟨[0x31], 0o644⟩ (.link "ui.strings" "../real.strings" .empty))
    (.file "real.strings" ⟨[0x32], 0o640⟩ .empty)
  here := []

/-- On `linkDisk` the link is replaced by a file with the permission bits of the file behind it, and both
other files stay.  A character set that is not known changes nothing. -/
theorem replace_atomic_linkDisk :
    (∃ after, replace "app/ui.strings" "3" "utf-8" linkDisk = (.ok (), after) ∧
      after.look ["app", "ui.strings"] = some (.file ⟨[0x33], 0o640⟩) ∧
      after.look ["real.strings"] = some (.file ⟨[0x32], 0o640⟩) ∧
      after.look ["app", ".ui.strings.00000000.tmp"] = some (.file ⟨[0x31], 0o644⟩)) ∧
    (replace "app/ui.strings" "3" "martian" linkDisk).2 = linkDisk := by
  constructor
  · have replaced : (replace "app/ui.strings" "3" "utf-8" linkDisk).1 = .ok () := by decide +kernel
    refine ⟨_, Prod.ext replaced rfl, ?_⟩
    obtain ⟨_, failed, -⟩ | ⟨-, spot, bytes, spotEq, encoded, new, behind, others, -⟩ :=
      replace_atomic (Prod.ext replaced rfl)
    · cases failed
    have spotIs : linkDisk.entryPlace? "app/ui.strings" = some ["app", "ui.strings"] := by decide +kernel
    have bytesAre : Charset.encodeNamed "utf-8" "3" = .ok [0x33] := by decide +kernel
    have mode : modeFor linkDisk (Path.tidy "app/ui.strings") = 0o640 := by decide +kernel
    obtain rfl := Option.some.inj (spotIs.symm.trans spotEq)
    obtain rfl := Except.ok.inj (bytesAre.symm.trans encoded)
    refine ⟨mode ▸ new, ?_, ?_⟩
    · exact behind "../real.strings" ["real.strings"] _ (by decide +kernel) (by decide +kernel)
        (by decide +kernel)
    · rw [others _ (by decide)]
      decide +kernel
  · have failed : (replace "app/ui.strings" "3" "martian" linkDisk).1 =
        .error (.unwritable "app/ui.strings" "unknown encoding: martian") := by
      decide +kernel
    obtain ⟨_, -, -, same, -⟩ | ⟨succeeded, -⟩ := replace_atomic (Prod.ext failed rfl)
    · exact same (by decide +kernel)
    · cases succeeded

end TextFile

end StringAudit
