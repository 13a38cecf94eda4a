import StringAudit.Proofs.Detection.Failing
import StringAudit.Proofs.Pool

/-!
# Scanning by a pool of workers

Resource files are scanned by a pool of workers, one task for each file, and what the pool comes to is
taken at the end.  A scan depends on its file, the corpus and the disk, none of which changes
meanwhile, so that every schedule of the pool comes to what scanning the files one after the other
comes to.
-/

namespace StringAudit.Audit

variable {audit : Audit} {roots : List String} {storyboards : Bool} {corpus : String}
  {paths : List String}

/-- What a worker does with a resource file. -/
def scanTask (audit : Audit) (corpus : String) (disk : Disk) (path : String) :
    Except Failure (String × List String) := do
  let identifiers ← audit.scanFile corpus path disk
  pure (path, identifiers)

/-- Take what a pool has come to. -/
def takeAll (audit : Audit) (outcome : Except Failure (List (String × List String))) :
    Action Findings := do
  let scanned ← Action.ofResult outcome
  scanned.foldlM audit.take {}

theorem scanFiles_eq_mapM (audit : Audit) (corpus : String) (disk : Disk) (paths : List String) :
    audit.scanFiles corpus disk paths = paths.mapM (audit.scanTask corpus disk) := by
  induction paths with
  | nil => rfl
  | cons path rest ih => simp only [scanFiles, List.mapM_cons, scanTask, ih, bind_assoc, pure_bind]

/-- With a number of workers that is possible, files are scanned and then taken. -/
theorem perform_scanAll (possible : audit.workers.any (· < 1) = false) (state : RunState) :
    (audit.scanAll corpus paths).perform state =
      (audit.takeAll (paths.mapM (audit.scanTask corpus state.disk))).perform state := by
  rw [scanAll]
  split
  · rename_i nothing
    obtain rfl := List.isEmpty_iff.mp nothing
    rfl
  · rw [possible, if_neg Bool.false_ne_true, takeAll, Action.perform_bind, Action.perform_bind,
      Action.perform_ask, Action.perform_ofResult, scanFiles_eq_mapM]

/-- Once its progress is told, a detection is the scan of the resource files. -/
theorem perform_detect {before state : RunState}
    (corpusEq : audit.corpus roots storyboards before.disk = .ok corpus)
    (pathsEq : audit.resources roots before.disk = .ok paths)
    (told : ([corpusLine, scanLine paths.length].forM (Writer.announce audit.progress)).perform before =
      (.ok (), state)) :
    (audit.detect roots storyboards).perform before = (audit.scanAll corpus paths).perform state := by
  obtain ⟨_, first, firstEq, told⟩ := Action.perform_bind_eq_ok_iff.mp told
  obtain ⟨_, second, secondEq, ended⟩ := Action.perform_bind_eq_ok_iff.mp told
  cases ended
  have firstDisk := ((Writer.looksOnly_announce _ _).frame firstEq).1
  rw [detect_eq, Action.perform_bind, firstEq]
  simp only [Action.perform_bind, Action.perform_ask, firstDisk, corpusEq, pathsEq, secondEq]

/-- A pool with at least one worker, whatever its schedule, leads to the same findings and the same
lines as scanning the files one after the other.  If a file cannot be scanned, the failure is that of the
first such file, and no line is written. -/
theorem detect_of_pool {workers : Nat} (state : RunState)
    {pool : Pool String Failure (String × List String)} (positive : 0 < workers)
    (fits : ∀ k : Int, audit.workers = some k → k = workers)
    (reaches : Pool.Reaches workers (audit.scanTask corpus state.disk) (Pool.submit paths) pool)
    (final : Pool.Final workers (audit.scanTask corpus state.disk) pool) :
    (audit.takeAll pool.outcome).perform state = (audit.scanAll corpus paths).perform state ∧
      (∀ roots storyboards before, audit.corpus roots storyboards before.disk = .ok corpus →
        audit.resources roots before.disk = .ok paths →
        ([corpusLine, scanLine paths.length].forM (Writer.announce audit.progress)).perform before =
          (.ok (), state) →
        (audit.takeAll pool.outcome).perform state =
          (audit.detect roots storyboards).perform before) ∧
      ∀ front path back failure, paths = front ++ path :: back →
        (∀ other ∈ front, ∃ ids, audit.scanFile corpus other state.disk = .ok ids) →
        audit.scanFile corpus path state.disk = .error failure →
        pool.outcome = .error failure ∧
          (audit.takeAll pool.outcome).perform state = (.error failure, state) := by
  have possible : audit.workers.any (· < 1) = false := by
    rcases workersEq : audit.workers with _ | k
    · rfl
    · have enough := fits k workersEq
      rw [Option.any_some, decide_eq_false_iff_not]
      omega
  have outcomeEq := Pool.outcome_of_final positive reaches final
  have scanned : (audit.takeAll pool.outcome).perform state =
      (audit.scanAll corpus paths).perform state := by
    rw [outcomeEq, perform_scanAll possible]
  refine ⟨scanned, ?_, ?_⟩
  · intro roots storyboards before corpusEq pathsEq told
    rw [scanned, perform_detect corpusEq pathsEq told]
  · rintro front path back failure rfl succeeded failed
    have frontOk : ∀ other ∈ front, ∃ result, audit.scanTask corpus state.disk other = .ok result := by
      intro other mem
      obtain ⟨ids, scannedEq⟩ := succeeded other mem
      exact ⟨(other, ids), by rw [scanTask, scannedEq]; rfl⟩
    obtain ⟨results, worked⟩ := Pool.exists_mapM frontOk
    have pathFails : audit.scanTask corpus state.disk path = .error failure := by
      rw [scanTask, failed]
      rfl
    have firstFailure : pool.outcome = .error failure := by
      rw [outcomeEq, Pool.mapM_eq_error worked pathFails]
    exact ⟨firstFailure, by rw [firstFailure]; rfl⟩

/-- Three resource files, the last two of which have identifier lines that are not closed. -/
def raceDisk : Disk where
  root := .folder "app"
    (.file "a.strings" ⟨[], 0o644⟩
      (.file "b.strings" ⟨Charset.Utf8.encode "\"one".toList, 0o644⟩
        (.file "c.strings" ⟨Charset.Utf8.encode "\"two".toList, 0o644⟩ .empty)))
    .empty
  here := []

/-- Two workers scan the files of `raceDisk`, and the last one fails before the one in the middle does.
The failure is that of the one in the middle, and the clean file in front of it has no line. -/
theorem detect_of_pool_raceDisk :
    let audit : Audit := { workers := some 2, notes := some (Writer.err "utf-8") }
    let middle : Failure := .unclosed "\"one" (some "app/b.strings") (some 1)
    ∃ pool, Pool.Reaches 2 (audit.scanTask "" raceDisk)
        (Pool.submit ["app/a.strings", "app/b.strings", "app/c.strings"]) pool ∧
      Pool.Final 2 (audit.scanTask "" raceDisk) pool ∧
      (audit.takeAll pool.outcome).perform { disk := raceDisk } =
        (.error middle, { disk := raceDisk }) ∧
      (audit.detect ["app"] false).perform { disk := raceDisk } =
        (.error middle, { disk := raceDisk }) := by
  intro audit middle
  have firstOk : audit.scanFile "" "app/a.strings" raceDisk = .ok [] := by decide +kernel
  have secondFails : audit.scanFile "" "app/b.strings" raceDisk = .error middle := by decide +kernel
  have first : audit.scanTask "" raceDisk "app/a.strings" = .ok ("app/a.strings", []) := by
    rw [scanTask, firstOk]
    rfl
  have second : audit.scanTask "" raceDisk "app/b.strings" = .error middle := by
    rw [scanTask, secondFails]
    rfl
  -- The third file is started when the first one has ended, and ends before the second one.
  have scheduled : ∀ (work : String → Except Failure (String × List String)) result error,
      work "app/a.strings" = .ok result → work "app/b.strings" = .error error →
      ∃ pool, Pool.Reaches 2 work
        (Pool.submit ["app/a.strings", "app/b.strings", "app/c.strings"]) pool ∧ pool.Ended := by
    intro work result error resultEq errorEq
    have allDone : Pool.Reaches 2 work
        (Pool.submit ["app/a.strings", "app/b.strings", "app/c.strings"])
        ⟨[⟨"app/a.strings", .done (work "app/a.strings")⟩,
          ⟨"app/b.strings", .done (work "app/b.strings")⟩,
          ⟨"app/c.strings", .done (work "app/c.strings")⟩], [], none⟩ := by
      refine .head (.start [] _ _ _ _ (by simp) (by decide)) ?_
      refine .head (.start [_] _ _ _ _ (by simp) (by decide)) ?_
      refine .head (.finish [] _ _ _ _) ?_
      refine .head (.start [_, _] _ _ _ _ (by simp) Nat.one_lt_two) ?_
      refine .head (.finish [_, _] _ _ _ _) ?_
      exact .single (.finish [_] _ _ _ _)
    rw [resultEq, errorEq] at allDone
    refine ⟨_, (allDone.tail (.drain [] _ _ _ _ rfl)).tail (.raise [_] _ _ _ _ rfl), ?_, ?_⟩
    · simp [Pool.Task.cancel]
    · intro raised
      cases raised
  obtain ⟨pool, reaches, ended⟩ := scheduled (audit.scanTask "" raceDisk) _ _ first second
  obtain ⟨-, whole, firstFailure⟩ :=
    detect_of_pool { disk := raceDisk } (by decide) (by rintro k ⟨⟩; rfl) reaches ended.final
  obtain ⟨-, failed⟩ := firstFailure ["app/a.strings"] "app/b.strings" ["app/c.strings"] middle rfl
    (List.forall_mem_singleton.mpr ⟨[], firstOk⟩) secondFails
  have detected := whole ["app"] false { disk := raceDisk } (by decide +kernel) (by decide +kernel) rfl
  exact ⟨pool, reaches, ended.final, failed, detected ▸ failed⟩

end StringAudit.Audit
