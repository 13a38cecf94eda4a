import StringAudit.Cleanup
import StringAudit.Proofs.TextFile
import StringAudit.Proofs.Writer

/-!
# Cleaning one file

Cleaning a file overwrites the entry that its path names, or it fails; then the disk is as before,
and a line on the alarm stream says why.
-/

namespace StringAudit.Cleanup

variable [Codecs]

/-- One disk comes from another by cleaning the file that a path leads to: the entry that the path
names is a file of its own now, with the text that is left. -/
structure Cleans (charset path : String) (unwanted : List String) (before after : Disk) (place : Place)
    (name text : String) (contents : File) : Prop where
  read_eq : TextFile.read path before = .ok text
  encoded : Codecs.encode charset (Resource.removing unwanted text) = .ok contents.bytes
  held : before.holder (.parse path) = .ok (place, some name)
  leaf : before.look (place ++ [name]) ≠ some .folder
  overwrites : after.Overwrites before (place ++ [name]) contents

/-- A file that is cleaned is replaced by what is left of its text; a cleaning that fails leaves the disk
as it was. -/
theorem replaces_or_agrees {charset path : String} {unwanted : List String} {before after : Disk}
    {result : Except Failure Unit} (cleaned : cleanFile charset path unwanted before = (result, after)) :
    (∃ failure, result = .error failure ∧ after.Agrees before) ∨
      (result = .ok () ∧ ∃ text place name contents, TextFile.read path before = .ok text ∧
        TextFile.Replaces path (Resource.removing unwanted text) charset before after place name
          contents) := by
  rw [cleanFile] at cleaned
  split at cleaned
  · cases cleaned
    exact Or.inl ⟨_, rfl, .refl _⟩
  · rename_i text readEq
    rcases TextFile.replace_cases cleaned with failed | ⟨rfl, place, name, contents, replaces⟩
    · exact Or.inl failed
    · exact Or.inr ⟨rfl, text, place, name, contents, readEq, replaces⟩

theorem cleanFile_cases {charset path : String} {unwanted : List String} {before after : Disk}
    {result : Except Failure Unit} (cleaned : cleanFile charset path unwanted before = (result, after)) :
    (∃ failure, result = .error failure ∧ after.Agrees before) ∨
      (result = .ok () ∧ ∃ place name text contents,
        Cleans charset path unwanted before after place name text contents) := by
  rcases replaces_or_agrees cleaned with failed | ⟨rfl, text, place, name, contents, readEq, replaces⟩
  · exact Or.inl failed
  · exact Or.inr ⟨rfl, place, name, text, contents, readEq, replaces.encoded, replaces.held,
      replaces.leaf, replaces.overwrites⟩

/-- Cleaning a file leaves the directories in order. -/
theorem ascending_cleanFile {disk : Disk} (ascending : disk.root.Ascending) (charset path : String)
    (unwanted : List String) : (cleanFile charset path unwanted disk).2.root.Ascending := by
  rw [cleanFile]
  split
  · exact ascending
  · exact TextFile.ascending_replace ascending path _ charset

/-- The line on a file that could not be cleaned. -/
def alarmLine (path reason : String) : String :=
  "ERROR writing file: " ++ path ++ " (" ++ reason ++ ")"

/-- The alarm line on a path was written, if there is a writer for it. -/
def Alarmed (cleanup : Cleanup) (path : String) (earlier later : Console) : Prop :=
  ∃ reason, ∀ w, cleanup.alarms = some w → w.Wrote (alarmLine path reason ++ "\n") earlier later

theorem Alarmed.mono {cleanup : Cleanup} {path : String} {earlier later first last : Console}
    (alarmed : cleanup.Alarmed path earlier later) (before : earlier.Continues first)
    (after : last.Continues later) : cleanup.Alarmed path first last := by
  obtain ⟨reason, wrote⟩ := alarmed
  exact ⟨reason, fun w alarmsEq => (wrote w alarmsEq).mono before after⟩

/-- What cleaning one of several files does, if it does not end the action. -/
theorem perform_cleanOne_cases {cleanup : Cleanup} {result next : Result} {entry : String × List String}
    {before after : RunState}
    (cleaned : (cleanup.cleanOne result entry).perform before = (.ok next, after)) :
    after.console.Continues before.console ∧
      after.disk = (cleanFile cleanup.charset entry.1 entry.2 before.disk).2 ∧
      ((after.disk.Agrees before.disk ∧ cleanup.Alarmed entry.1 before.console after.console ∧
          ∃ message, next = { result with failed := result.failed ++ [(entry.1, message)] }) ∨
        (next = { result with written := result.written ++ [entry.1] } ∧ ∃ place name text contents,
          Cleans cleanup.charset entry.1 entry.2 before.disk after.disk place name text contents)) := by
  simp only [cleanOne] at cleaned
  obtain ⟨_, announced, announcedEq, cleaned⟩ := Action.perform_bind_eq_ok_iff.mp cleaned
  obtain ⟨sameDisk, continues⟩ := (Writer.looksOnly_announce _ _).frame announcedEq
  obtain ⟨outcome, between, outcomeEq, concluded⟩ := Action.perform_bind_eq_ok_iff.mp cleaned
  rcases tried : cleanFile cleanup.charset entry.1 entry.2 before.disk with ⟨attempt, disk⟩
  rw [Action.perform_outcome, Action.perform_onDisk, sameDisk, tried, Prod.mk.injEq,
    Except.ok.injEq] at outcomeEq
  obtain ⟨rfl, rfl⟩ := outcomeEq
  rcases cleanFile_cases tried with ⟨failure, rfl, agrees⟩ | ⟨rfl, cleans⟩
  · simp only at concluded
    split at concluded
    · rename_i reason reasonEq
      obtain ⟨_, alarmed, alarmedEq, ended⟩ := Action.perform_bind_eq_ok_iff.mp concluded
      obtain ⟨rfl, rfl⟩ : _ = next ∧ alarmed = after := by simpa using ended
      obtain ⟨alarmDisk, alarmContinues⟩ := (Writer.looksOnly_announce _ _).frame alarmedEq
      refine ⟨alarmContinues.trans continues, alarmDisk,
        Or.inl ⟨alarmDisk ▸ agrees, ⟨reason, ?_⟩, _, rfl⟩⟩
      intro w alarmsEq
      rw [alarmsEq] at alarmedEq
      exact (Writer.wrote_of_perform alarmedEq).mono continues (.refl _)
    · cases concluded
  · obtain ⟨rfl, rfl⟩ : _ = next ∧ _ = after := by simpa using concluded
    exact ⟨continues, rfl, Or.inr ⟨rfl, cleans⟩⟩

end StringAudit.Cleanup
