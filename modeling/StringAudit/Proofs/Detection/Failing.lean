import StringAudit.Proofs.Detection
import StringAudit.Proofs.Progress

/-!
# How detection fails

Detection fails where the corpus cannot be built, the resource files cannot be collected, or one of them
cannot be scanned.  In each case it has told its progress up to that point and nothing else: lines on
clean files come only after every file has been scanned.
-/

namespace StringAudit.Audit

/-- The line in front of the corpus. -/
def corpusLine : String :=
  "[1/2] Building source corpus..."

/-- The line in front of the scan of a number of files. -/
def scanLine (count : Nat) : String :=
  "[2/2] Scanning " ++ toString count ++ " resource files..."

theorem ascii_corpusLine : Charset.Ascii corpusLine.toList := by
  decide +kernel

theorem ascii_scanLine (count : Nat) : Charset.Ascii (scanLine count).toList := by
  have front : Charset.Ascii "[2/2] Scanning ".toList := by decide +kernel
  have back : Charset.Ascii " resource files...".toList := by decide +kernel
  exact (front.append (Charset.ascii_toString count)).append back

theorem detect_eq (audit : Audit) (roots : List String) (storyboards : Bool) :
    audit.detect roots storyboards = (do
      Writer.announce audit.progress corpusLine
      let corpus ← Action.ask (audit.corpus roots storyboards)
      let paths ← Action.ask (audit.resources roots)
      Writer.announce audit.progress (scanLine paths.length)
      audit.scanAll corpus paths) :=
  rfl

/-- A disk on which detection fails, and the lines that are told before. -/
inductive Fails (audit : Audit) (roots : List String) (storyboards : Bool) (disk : Disk)
    (failure : Failure) : List String → Prop
  | sources (missing : audit.corpus roots storyboards disk = .error failure) :
      Fails audit roots storyboards disk failure [corpusLine]
  | resources {corpus : String} (corpusEq : audit.corpus roots storyboards disk = .ok corpus)
      (missing : audit.resources roots disk = .error failure) :
      Fails audit roots storyboards disk failure [corpusLine]
  | scan {corpus : String} {paths : List String}
      (corpusEq : audit.corpus roots storyboards disk = .ok corpus)
      (pathsEq : audit.resources roots disk = .ok paths)
      (missing : audit.scanFiles corpus disk paths = .error failure) :
      Fails audit roots storyboards disk failure [corpusLine, scanLine paths.length]

variable {audit : Audit} {roots : List String} {storyboards : Bool} {failure : Failure}
  {before after : RunState}

theorem Fails.ascii {disk : Disk} {told : List String}
    (fails : audit.Fails roots storyboards disk failure told) :
    ∀ line ∈ told, Charset.Ascii line.toList := by
  cases fails with
  | sources => exact List.forall_mem_singleton.mpr ascii_corpusLine
  | resources => exact List.forall_mem_singleton.mpr ascii_corpusLine
  | scan =>
      exact List.forall_mem_cons.mpr
        ⟨ascii_corpusLine, List.forall_mem_singleton.mpr (ascii_scanLine _)⟩

/-- A failure to deliver a line of an audit. -/
def Undelivered (audit : Audit) (failure : Failure) : Prop :=
  ∃ w text, (audit.progress = some w ∨ audit.notes = some w) ∧ w.delivery text = .error failure

theorem undelivered_of_progress {line : String}
    (failed : (Writer.announce audit.progress line).perform before = (.error failure, after)) :
    audit.Undelivered failure := by
  obtain ⟨w, text, writerEq, undelivered⟩ := Writer.undelivered_of_announce failed
  exact ⟨w, text, Or.inl writerEq, undelivered⟩

/-- Taking what was scanned fails only by a line that cannot be delivered. -/
theorem undelivered_of_take {findings : Findings} {scanned : String × List String}
    (failed : (audit.take findings scanned).perform before = (.error failure, after)) :
    audit.Undelivered failure := by
  rw [take] at failed
  split at failed
  · rcases Action.perform_bind_eq_error_iff.mp failed with failed | ⟨_, _, _, returned⟩
    · obtain ⟨w, text, writerEq, undelivered⟩ := Writer.undelivered_of_announce failed
      exact ⟨w, text, Or.inr writerEq, undelivered⟩
    · cases returned
  · cases failed

/-- A failure of an audit that is none of its disk: a line is not delivered, or there are no workers. -/
def Stalls (audit : Audit) (failure : Failure) : Prop :=
  audit.Undelivered failure ∨
    (audit.workers.any (· < 1) = true ∧ failure = .breakdown .noWorkers)

theorem Stalls.unreported (stalls : audit.Stalls failure) : failure.Unreported := by
  obtain ⟨_, _, _, undelivered⟩ | ⟨_, rfl⟩ := stalls
  · exact Writer.unreported_of_delivery undelivered
  · trivial

/-- A scan that fails, if not for the lines on clean files, fails at a file and writes nothing. -/
theorem scanAll_eq_error {corpus : String} {paths : List String}
    (failed : (audit.scanAll corpus paths).perform before = (.error failure, after)) :
    audit.Stalls failure ∨
      (audit.scanFiles corpus before.disk paths = .error failure ∧ after = before) := by
  rw [scanAll] at failed
  split at failed
  · cases failed
  split at failed
  · rename_i few
    cases failed
    exact Or.inl (Or.inr ⟨few, rfl⟩)
  rcases Action.perform_bind_eq_error_iff.mp failed with missing | ⟨scanned, between, _, taken⟩
  · rw [Action.perform_ask, Prod.mk.injEq] at missing
    exact Or.inr ⟨missing.1, missing.2.symm⟩
  · obtain ⟨_, _, _, _, step⟩ := Action.exists_step_of_perform_foldlM_eq_error taken
    exact Or.inl (Or.inl (undelivered_of_take step))

/-- A detection that fails, and does not stall, has told its progress, and nothing else. -/
theorem stalls_or_fails_of_detect
    (failed : (audit.detect roots storyboards).perform before = (.error failure, after)) :
    audit.Stalls failure ∨ ∃ told, audit.Fails roots storyboards before.disk failure told ∧
      (told.forM (Writer.announce audit.progress)).perform before = (.ok (), after) := by
  rw [detect_eq] at failed
  rcases Action.perform_bind_eq_error_iff.mp failed with failed | ⟨_, first, firstEq, failed⟩
  · exact Or.inl (Or.inl (undelivered_of_progress failed))
  have firstDisk := ((Writer.looksOnly_announce _ _).frame firstEq).1
  have onlyFirst : ([corpusLine].forM (Writer.announce audit.progress)).perform before =
      (.ok (), first) :=
    Action.perform_bind_eq_ok_iff.mpr ⟨(), first, firstEq, rfl⟩
  rcases Action.perform_bind_eq_error_iff.mp failed with missing | ⟨corpus, same, corpusEq, failed⟩
  · rw [Action.perform_ask, firstDisk, Prod.mk.injEq] at missing
    obtain ⟨missing, rfl⟩ := missing
    exact Or.inr ⟨_, .sources missing, onlyFirst⟩
  rw [Action.perform_ask, firstDisk, Prod.mk.injEq] at corpusEq
  obtain ⟨corpusEq, rfl⟩ := corpusEq
  rcases Action.perform_bind_eq_error_iff.mp failed with missing | ⟨paths, same, pathsEq, failed⟩
  · rw [Action.perform_ask, firstDisk, Prod.mk.injEq] at missing
    obtain ⟨missing, rfl⟩ := missing
    exact Or.inr ⟨_, .resources corpusEq missing, onlyFirst⟩
  rw [Action.perform_ask, firstDisk, Prod.mk.injEq] at pathsEq
  obtain ⟨pathsEq, rfl⟩ := pathsEq
  rcases Action.perform_bind_eq_error_iff.mp failed with failed | ⟨_, second, secondEq, failed⟩
  · exact Or.inl (Or.inl (undelivered_of_progress failed))
  have secondDisk := ((Writer.looksOnly_announce _ _).frame secondEq).1
  rcases scanAll_eq_error failed with stalls | ⟨missing, rfl⟩
  · exact Or.inl stalls
  · rw [secondDisk, firstDisk] at missing
    refine Or.inr ⟨_, .scan corpusEq pathsEq missing, ?_⟩
    refine Action.perform_bind_eq_ok_iff.mpr ⟨(), first, firstEq, ?_⟩
    exact Action.perform_bind_eq_ok_iff.mpr ⟨(), _, secondEq, rfl⟩

/-- A detection that fails has told its progress, and nothing else. -/
theorem fails_of_detect
    (failed : (audit.detect roots storyboards).perform before = (.error failure, after)) :
    failure.Unreported ∨ ∃ told, audit.Fails roots storyboards before.disk failure told ∧
      (told.forM (Writer.announce audit.progress)).perform before = (.ok (), after) :=
  (stalls_or_fails_of_detect failed).imp_left Stalls.unreported

end StringAudit.Audit
