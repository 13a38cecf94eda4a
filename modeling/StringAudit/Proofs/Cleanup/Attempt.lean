import StringAudit.Proofs.Cleanup.Step
import StringAudit.Proofs.Delivery
import StringAudit.Proofs.TextFile.Atomic
import StringAudit.Proofs.TextFile.Elsewhere

/-!
# One file among others

What becomes of a file does not depend on the files that were cleaned before it, as long as its path
leads to none of them.  It can be cleaned or not as on the first disk, and the new file is the same.  Only
the reason why a path leads nowhere may be another one, if the path passed too many links.
-/

namespace StringAudit.Cleanup

variable {charset path : String} {unwanted : List String}

/-! ## Failures of one file -/

/-- Unless the path, or the name of the character set for a text that was read, holds the character
U+0000, the failure to clean a file is confined to it. -/
theorem confined_of_cleanFile {disk after : Disk} {failure : Failure}
    (usable : Disk.isUsable path = true)
    (named : ∀ text, TextFile.read path disk = .ok text → '\x00' ∉ charset.toList)
    (failed : cleanFile charset path unwanted disk = (.error failure, after)) :
    ∃ reason, confined? failure = some reason := by
  rw [cleanFile] at failed
  split at failed
  · rename_i readEq
    cases failed
    obtain ⟨reason, rfl⟩ := TextFile.reason_of_read usable readEq
    exact ⟨reason, rfl⟩
  · rename_i text readEq
    obtain ⟨reason, rfl⟩ := TextFile.reason_of_replace usable (named text readEq) failed
    exact ⟨reason, rfl⟩

/-- A result with what became of one more file. -/
def Result.with (result : Result) (path : String) : Except Failure Unit → Result
  | .ok () => { result with written := result.written ++ [path] }
  | .error failure => { result with failed := result.failed ++ [(path, failure.message)] }

section CleanOne

variable {cleanup : Cleanup} {entry : String × List String}

/-- Cleaning one of several files tries to clean it, after a progress line. -/
theorem exists_perform_attempt (progress : ∀ w, cleanup.progress = some w → w.Sound)
    {before : RunState} {outcome : Except Failure Unit} {disk : Disk}
    (tried : cleanFile cleanup.charset entry.1 entry.2 before.disk = (outcome, disk)) :
    ∃ told : RunState,
      (Writer.announce cleanup.progress ("\n\nNow modifying " ++ entry.1 ++ " ...")).perform before =
        (.ok (), told) ∧
      (Action.onDisk (cleanFile cleanup.charset entry.1 entry.2)).outcome.perform told =
        (.ok outcome, { told with disk }) := by
  obtain ⟨told, toldEq, toldDisk⟩ := Writer.exists_perform_announce progress _ before
  refine ⟨told, toldEq, ?_⟩
  rw [Action.perform_outcome, Action.perform_onDisk, toldDisk, tried]

/-- Cleaning one of several files does to the disk what cleaning the file does, and it goes on after a
failure that is confined to the file. -/
theorem exists_perform_cleanOne (progress : ∀ w, cleanup.progress = some w → w.Sound)
    (alarms : ∀ w, cleanup.alarms = some w → w.Sound) (result : Result) (before : RunState)
    (confined : ∀ failure, (cleanFile cleanup.charset entry.1 entry.2 before.disk).1 = .error failure →
      ∃ reason, confined? failure = some reason) :
    ∃ after, (cleanup.cleanOne result entry).perform before =
        (.ok (result.with entry.1 (cleanFile cleanup.charset entry.1 entry.2 before.disk).1), after) ∧
      after.disk = (cleanFile cleanup.charset entry.1 entry.2 before.disk).2 := by
  rcases tried : cleanFile cleanup.charset entry.1 entry.2 before.disk with ⟨outcome, disk⟩
  obtain ⟨told, toldEq, attempted⟩ := exists_perform_attempt progress tried
  simp only [cleanOne, Action.perform_bind_eq_ok_iff]
  cases outcome with
  | ok _ => exact ⟨_, ⟨(), told, toldEq, _, _, attempted, rfl⟩, rfl⟩
  | error failure =>
      obtain ⟨reason, reasonEq⟩ := confined failure (by rw [tried])
      obtain ⟨last, lastEq, lastDisk⟩ := Writer.exists_perform_announce alarms
        ("ERROR writing file: " ++ entry.1 ++ " (" ++ reason ++ ")") { told with disk }
      refine ⟨last, ⟨(), told, toldEq, _, _, attempted, ?_⟩, lastDisk⟩
      simp only [reasonEq, Action.perform_bind_eq_ok_iff]
      exact ⟨(), last, lastEq, rfl⟩

/-- Cleaning one of several files fails by a failure that is not confined to the file. -/
theorem exists_perform_cleanOne_error (progress : ∀ w, cleanup.progress = some w → w.Sound)
    (result : Result) {before : RunState} {failure : Failure} {disk : Disk}
    (tried : cleanFile cleanup.charset entry.1 entry.2 before.disk = (.error failure, disk))
    (unconfined : confined? failure = none) :
    ∃ after, (cleanup.cleanOne result entry).perform before = (.error failure, after) ∧
      after.disk = disk := by
  obtain ⟨told, toldEq, attempted⟩ := exists_perform_attempt progress tried
  refine ⟨{ told with disk }, ?_, rfl⟩
  simp only [cleanOne, Action.perform_bind_eq_error_iff]
  refine Or.inr ⟨(), told, toldEq, Or.inr ⟨_, _, attempted, ?_⟩⟩
  simp only [unconfined, Action.perform_throw]

end CleanOne

/-! ## After other files -/

/-- The failure of a path that passes too many links. -/
def Looped (path : String) (failure : Failure) : Prop :=
  ∃ shown, failure = .unreadable path (Disk.Fault.message ⟨.tooManyLinks, shown, none⟩) ∨
    failure = .unwritable path (Disk.Fault.message ⟨.tooManyLinks, shown, none⟩)

theorem agrees_of_cleanFile {disk after : Disk} {failure : Failure}
    (failed : cleanFile charset path unwanted disk = (.error failure, after)) : after.Agrees disk := by
  rcases replaces_or_agrees failed with ⟨_, _, agrees⟩ | ⟨succeeded, _⟩
  · exact agrees
  · cases succeeded

theorem replaces_of_cleanFile {disk after : Disk}
    (cleaned : cleanFile charset path unwanted disk = (.ok (), after)) :
    ∃ text place name contents, TextFile.read path disk = .ok text ∧
      TextFile.Replaces path (Resource.removing unwanted text) charset disk after place name contents := by
  rcases replaces_or_agrees cleaned with ⟨_, failed, _⟩ | ⟨_, replaces⟩
  · cases failed
  · exact replaces

section Elsewhere

variable {first disk : Disk} {spots : List Place}

/-- A file is cleaned or not as before, unless its path passed too many links: then it fails all the
same. -/
theorem cleanFile_elsewhere (charset : String) (unwanted : List String)
    (elsewhere : first.Elsewhere (.parse path) spots) (refiles : Disk.Refiles disk first spots)
    (usable : Disk.isUsable path = true) :
    (cleanFile charset path unwanted disk).1 = (cleanFile charset path unwanted first).1 ∨
      (∃ failure, (cleanFile charset path unwanted first).1 = .error failure ∧ Looped path failure) ∧
        ∃ failure, (cleanFile charset path unwanted disk).1 = .error failure := by
  rcases TextFile.read_elsewhere elsewhere refiles usable with same | ⟨⟨shown, looped⟩, reason, unread⟩
  · rw [cleanFile, cleanFile, same]
    cases readEq : TextFile.read path first with
    | error failure => exact Or.inl rfl
    | ok text =>
        obtain ⟨place, contents, found⟩ := TextFile.entry_of_read readEq
        rcases TextFile.replace_elsewhere elsewhere refiles usable found with
          replaced | ⟨⟨shown, looped⟩, reason, unwritten⟩
        · exact Or.inl replaced
        · exact Or.inr ⟨⟨_, looped, shown, Or.inr rfl⟩, _, unwritten⟩
  · rw [cleanFile, cleanFile, looped, unread]
    exact Or.inr ⟨⟨_, rfl, shown, Or.inl rfl⟩, _, rfl⟩

/-- A file that is cleaned becomes the same new file as before. -/
theorem overwrites_elsewhere (elsewhere : first.Elsewhere (.parse path) spots)
    (refiles : Disk.Refiles disk first spots) {alone later : Disk}
    (cleanedAlone : cleanFile charset path unwanted first = (.ok (), alone))
    (cleaned : cleanFile charset path unwanted disk = (.ok (), later)) :
    ∃ spot contents, first.entryPlace? path = some spot ∧ alone.Overwrites first spot contents ∧
      later.Overwrites disk spot contents := by
  obtain ⟨text, place, name, contents, readEq, replacesAlone⟩ := replaces_of_cleanFile cleanedAlone
  obtain ⟨again, place', name', contents', readAgain, replaces⟩ := replaces_of_cleanFile cleaned
  have same := (TextFile.read_elsewhere_iff elsewhere refiles).mp readAgain
  obtain rfl := Except.ok.inj (readEq.symm.trans same)
  obtain ⟨goal, old, found⟩ := TextFile.entry_of_read readEq
  obtain ⟨rfl, rfl, rfl⟩ := replaces.unique elsewhere refiles found replacesAlone
  exact ⟨place' ++ [name'], contents',
    Disk.entryPlace?_eq_some_iff.mpr ⟨place', name', replacesAlone.held, rfl⟩,
    replacesAlone.overwrites, replaces.overwrites⟩

end Elsewhere

end StringAudit.Cleanup
