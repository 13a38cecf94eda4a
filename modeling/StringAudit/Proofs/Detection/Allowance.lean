import StringAudit.Proofs.Detection.Exact
import StringAudit.Proofs.Detection.Stops

/-!
# Allowing more identifiers

What is allowed has no part in whether files can be read and scanned: every file is read and searched for
unfinished lines in any case.  And an identifier can be left out before a file is scanned or struck from the
findings afterwards: the first occurrences of those that stay are the same.  So allowing more identifiers
strikes them from every list of the findings, and the files whose list becomes empty are noted as clean among
the others, where they were collected.  A note can be lost, and only there a detection may fail that did not.
-/

namespace StringAudit

namespace Findings

/-- Findings without some identifiers, and without the files of which nothing stays. -/
def without (findings : Findings) (dropped : List String) : Findings :=
  ⟨(findings.entries.map fun entry => (entry.1, entry.2.filter (· ∉ dropped))).filter (·.2 ≠ [])⟩

/-- A file of the findings has no identifiers but those to drop. -/
def Emptied (findings : Findings) (dropped : List String) (path : String) : Prop :=
  ∃ entry ∈ findings.entries, entry.1 = path ∧ ∀ i ∈ entry.2, i ∈ dropped

instance (findings : Findings) (dropped : List String) (path : String) :
    Decidable (findings.Emptied dropped path) :=
  inferInstanceAs (Decidable (∃ entry ∈ findings.entries, entry.1 = path ∧ ∀ i ∈ entry.2, i ∈ dropped))

variable {identifiers : String → List String} {paths dropped : List String}

/-- Dropping identifiers from the lists that are tallied comes to dropping them afterwards. -/
theorem tallied_filter_eq_without :
    (paths.map fun path => (path, (identifiers path).filter (· ∉ dropped))).foldl tally {} =
      ((paths.map fun path => (path, identifiers path)).foldl tally {}).without dropped := by
  have stays : ∀ path, (identifiers path).filter (· ∉ dropped) ≠ [] → identifiers path ≠ [] := by
    intro path some none
    simp [none] at some
  have twice : (paths.filter fun path => (identifiers path).filter (· ∉ dropped) ≠ []) =
      (paths.filter fun path => identifiers path ≠ []).filter fun path =>
        (identifiers path).filter (· ∉ dropped) ≠ [] := by
    rw [List.filter_filter]
    refine List.filter_congr fun path _ => ?_
    rw [← Bool.decide_and]
    exact decide_eq_decide.mpr (iff_self_and.mpr (stays path))
  refine congrArg mk ?_
  rw [entries_tallied, entries_tallied, twice, eraseDups_filter, List.map_map, List.filter_map]
  rfl

/-- The files of tallied findings that are emptied are those of which something was found and all of it is
dropped. -/
theorem emptied_tallied_iff {path : String} (mem : path ∈ paths) :
    ((paths.map fun path => (path, identifiers path)).foldl tally {}).Emptied dropped path ↔
      identifiers path ≠ [] ∧ ∀ i ∈ identifiers path, i ∈ dropped := by
  constructor
  · rintro ⟨entry, entryMem, rfl, all⟩
    obtain ⟨-, idsEq, some⟩ := mem_tallied_iff.mp entryMem
    exact idsEq ▸ ⟨some, all⟩
  · rintro ⟨some, all⟩
    exact ⟨(path, identifiers path), mem_tallied_iff.mpr ⟨mem, rfl, some⟩, rfl, all⟩

/-- The files that are not recorded once identifiers are dropped are those that were not recorded before,
and those that are emptied. -/
theorem filter_not_mem_without (found : Findings)
    (foundEq : found = (paths.map fun path => (path, identifiers path)).foldl tally {}) :
    (paths.filter fun path => path ∉ (found.without dropped).entries.map (·.1)) =
      paths.filter fun path => path ∉ found.entries.map (·.1) ∨ found.Emptied dropped path := by
  subst foundEq
  refine List.filter_congr fun path mem => decide_eq_decide.mpr ?_
  rw [emptied_tallied_iff mem, ← tallied_filter_eq_without, mem_tallied_paths_iff, mem_tallied_paths_iff]
  simp only [mem, true_and, ne_eq, not_not, List.filter_eq_nil_iff, decide_eq_true_eq]
  constructor
  · intro all
    exact or_iff_not_imp_left.mpr fun some => ⟨some, all⟩
  · rintro (none | ⟨-, all⟩)
    · simp [none]
    · exact all

end Findings

namespace Audit

/-- An audit that allows more identifiers. -/
def allowing (audit : Audit) (more : List String) : Audit :=
  { audit with allowed := audit.allowed ++ more }

variable {audit : Audit} {roots : List String} {storyboards : Bool} {before after : RunState}

/-- Of what was condemned in a text, all but what is allowed now still is. -/
theorem condemned_allowing (more : List String) (corpus : List Char) (text : String) :
    (audit.allowing more).condemned corpus text =
      (audit.condemned corpus text).filter (· ∉ more) := by
  rw [condemned, condemned, ← eraseDups_filter, List.filter_filter]
  congr 2
  funext i
  by_cases allowedNow : i ∈ more <;> simp [allowing, allowedNow]

/-! ## Failing -/

/-- Taking what was scanned does not fail if the lines on clean files can be written. -/
theorem perform_foldlM_take_ne_error {scanned : List (String × List String)}
    (noted : ∀ item ∈ scanned, audit.CanNote item.1) {findings : Findings} {failure : Failure} :
    (scanned.foldlM audit.take findings).perform before ≠ (.error failure, after) := by
  have looks : (scanned.foldlM audit.take findings).LooksOnly :=
    .foldlM (fun findings item _ => looksOnly_take findings item) findings
  obtain ⟨_, taken⟩ := looks.exists_perform_eq_ok_iff.mpr
    (seen_foldlM_take_eq_ok_iff.mpr ⟨rfl, fun item mem _ => noted item mem⟩)
  intro failed
  cases taken.symm.trans failed

/-- Where the lines on clean files can be written, scanning fails for want of workers, or else at a file,
and it has written nothing. -/
theorem scanAll_eq_error_iff {corpus : String} {paths : List String}
    (noted : ∀ path ∈ paths, audit.CanNote path) {failure : Failure} :
    (audit.scanAll corpus paths).perform before = (.error failure, after) ↔
      paths ≠ [] ∧ before = after ∧
        if audit.workers.any (· < 1) then failure = .breakdown .noWorkers
        else audit.scanFiles corpus before.disk paths = .error failure := by
  rw [scanAll]
  split
  · rename_i none
    simp [List.isEmpty_iff.mp none]
  rename_i some
  have someFiles : paths ≠ [] := mt List.isEmpty_iff.mpr some
  split
  · simp [someFiles, eq_comm, and_comm]
  have taken : ∀ scanned, audit.scanFiles corpus before.disk paths = .ok scanned →
      (scanned.foldlM audit.take {}).perform before ≠ (.error failure, after) := by
    intro scanned scannedEq
    obtain ⟨rfl, -⟩ := scanFiles_eq_ok_iff.mp scannedEq
    exact perform_foldlM_take_ne_error fun item mem => noted item.1 (List.mem_map_of_mem mem)
  rw [Action.perform_bind_eq_error_iff, Action.perform_ask]
  constructor
  · rintro (failed | ⟨scanned, _, asked, failed⟩)
    · exact ⟨someFiles, (Prod.mk.inj failed).2, (Prod.mk.inj failed).1⟩
    · obtain ⟨scannedEq, rfl⟩ := Prod.mk.inj asked
      exact absurd failed (taken scanned scannedEq)
  · rintro ⟨-, rfl, failed⟩
    exact Or.inl (Prod.ext failed rfl)

theorem scanAll_allowing_eq_error_iff {corpus : String} {paths : List String}
    (noted : ∀ path ∈ paths, audit.CanNote path) (more : List String) {failure : Failure} :
    ((audit.allowing more).scanAll corpus paths).perform before = (.error failure, after) ↔
      (audit.scanAll corpus paths).perform before = (.error failure, after) := by
  have notedToo : ∀ path ∈ paths, (audit.allowing more).CanNote path := noted
  -- How a scan of files fails is a matter of the disk.
  have sameFiles : (audit.allowing more).scanFiles corpus before.disk paths = .error failure ↔
      audit.scanFiles corpus before.disk paths = .error failure :=
    scanFiles_eq_error_iff.trans scanFiles_eq_error_iff.symm
  rw [scanAll_eq_error_iff notedToo, scanAll_eq_error_iff noted, sameFiles]
  rfl

theorem detect_allowing_eq_error_iff
    (noted : ∀ paths, audit.resources roots before.disk = .ok paths → ∀ path ∈ paths, audit.CanNote path)
    (more : List String) {failure : Failure} :
    ((audit.allowing more).detect roots storyboards).perform before = (.error failure, after) ↔
      (audit.detect roots storyboards).perform before = (.error failure, after) := by
  rw [detect_eq, detect_eq]
  refine Action.perform_bind_eq_error_congr fun _ first announced => ?_
  have sameDisk := ((Writer.looksOnly_announce _ _).frame announced).1
  refine Action.perform_bind_eq_error_congr fun corpus _ asked => ?_
  obtain ⟨-, rfl⟩ := Prod.mk.inj ((Action.perform_ask _ _).symm.trans asked)
  refine Action.perform_bind_eq_error_congr fun paths _ asked => ?_
  obtain ⟨pathsEq, rfl⟩ := Prod.mk.inj ((Action.perform_ask _ _).symm.trans asked)
  refine Action.perform_bind_eq_error_congr fun _ _ _ => ?_
  exact scanAll_allowing_eq_error_iff (noted paths (sameDisk ▸ pathsEq)) more

/-! ## Finding -/

/-- Taking files records those in which something was found and announces a line for each occurrence of the
others. -/
theorem tallied_of_foldlM_take {identifiers : String → List String} {paths : List String}
    {found : Findings}
    (taken : ((paths.map fun path => (path, identifiers path)).foldlM audit.take {}).perform before =
      (.ok found, after)) :
    found = (paths.map fun path => (path, identifiers path)).foldl Findings.tally {} ∧
      after.disk = before.disk ∧
      Writer.Announced audit.notes
        ((paths.filter fun path => path ∉ found.entries.map (·.1)).map cleanLine)
        before.console after.console := by
  obtain ⟨rfl, noted⟩ := announced_of_foldlM_take taken
  obtain ⟨sameDisk, announced⟩ := Writer.announced_of_perform noted
  have unrecorded : (paths.filter fun path => identifiers path = []) = paths.filter fun path =>
      path ∉ ((paths.map fun path => (path, identifiers path)).foldl Findings.tally {}).entries.map (·.1) := by
    refine List.filter_congr fun path mem => decide_eq_decide.mpr ?_
    rw [Findings.mem_tallied_paths_iff]
    simp [mem]
  rw [List.filter_map, List.map_map] at announced
  exact ⟨rfl, sameDisk, unrecorded ▸ announced⟩

/-- A file that is scanned with fewer identifiers allowed is scanned with more. -/
theorem scanFile_allowing {corpus path : String} {disk : Disk} {ids : List String} (more : List String)
    (scanned : audit.scanFile corpus path disk = .ok ids) :
    (audit.allowing more).scanFile corpus path disk = .ok (ids.filter (· ∉ more)) := by
  obtain ⟨text, readEq, rfl⟩ := eq_condemned_of_scanFile scanned
  have scannable : Scannable disk path := exists_scanFile_iff.mp ⟨_, scanned⟩
  obtain ⟨ids, scannedToo⟩ : ∃ ids, (audit.allowing more).scanFile corpus path disk = .ok ids :=
    exists_scanFile_iff.mpr scannable
  obtain ⟨again, againEq, rfl⟩ := eq_condemned_of_scanFile scannedToo
  obtain rfl := Except.ok.inj (readEq.symm.trans againEq)
  rw [scannedToo, condemned_allowing]

theorem scanFiles_allowing {corpus : String} {disk : Disk} {paths : List String}
    {scanned : List (String × List String)} (more : List String)
    (scanning : audit.scanFiles corpus disk paths = .ok scanned) :
    (audit.allowing more).scanFiles corpus disk paths =
      .ok (scanned.map fun item => (item.1, item.2.filter (· ∉ more))) := by
  obtain ⟨rfl, each⟩ := scanFiles_eq_ok_iff.mp scanning
  refine scanFiles_eq_ok_iff.mpr ⟨List.map_map, List.forall_mem_map.mpr fun item mem => ?_⟩
  exact scanFile_allowing more (each item mem)

/-- A detection of which all files can be scanned comes to findings exactly if its lines can be written, and
the number of its workers is possible. -/
theorem exists_detect_iff_of_scanFiles {corpus : String} {paths : List String}
    {scanned : List (String × List String)} (corpusEq : audit.corpus roots storyboards before.disk = .ok corpus)
    (pathsEq : audit.resources roots before.disk = .ok paths)
    (scanning : audit.scanFiles corpus before.disk paths = .ok scanned) :
    (∃ found after, (audit.detect roots storyboards).perform before = (.ok found, after)) ↔
      (Writer.CanAnnounce audit.progress corpusLine ∧
        Writer.CanAnnounce audit.progress (scanLine paths.length) ∧
        (paths ≠ [] → audit.workers.any (· < 1) = false)) ∧
        ∀ item ∈ scanned, item.2 = [] → audit.CanNote item.1 := by
  simp only [(looksOnly_detect roots storyboards).exists_perform_eq_ok_iff, seen_detect_eq_ok_iff,
    seen_scanAll_eq_ok_iff]
  constructor
  · rintro ⟨_, started, _, corpusEq', _, pathsEq', counted, possible, _, scanning', -, noted⟩
    obtain rfl := Except.ok.inj (corpusEq.symm.trans corpusEq')
    obtain rfl := Except.ok.inj (pathsEq.symm.trans pathsEq')
    obtain rfl := Except.ok.inj (scanning.symm.trans scanning')
    exact ⟨⟨started, counted, possible⟩, noted⟩
  · rintro ⟨⟨started, counted, possible⟩, noted⟩
    exact ⟨_, started, corpus, corpusEq, paths, pathsEq, counted, possible, scanned, scanning, rfl, noted⟩

/-- With more identifiers allowed, the lines must be written on all files of which these leave nothing. -/
theorem exists_detect_allowing_iff {corpus : String} {paths : List String}
    {scanned : List (String × List String)} (more : List String)
    (corpusEq : audit.corpus roots storyboards before.disk = .ok corpus)
    (pathsEq : audit.resources roots before.disk = .ok paths)
    (scanning : audit.scanFiles corpus before.disk paths = .ok scanned) :
    (∃ found after, ((audit.allowing more).detect roots storyboards).perform before = (.ok found, after)) ↔
      (Writer.CanAnnounce audit.progress corpusLine ∧
        Writer.CanAnnounce audit.progress (scanLine paths.length) ∧
        (paths ≠ [] → audit.workers.any (· < 1) = false)) ∧
        ∀ item ∈ scanned, (∀ i ∈ item.2, i ∈ more) → audit.CanNote item.1 := by
  have corpusEq' : (audit.allowing more).corpus roots storyboards before.disk = .ok corpus := corpusEq
  rw [exists_detect_iff_of_scanFiles corpusEq' pathsEq (scanFiles_allowing more scanning)]
  simp only [List.forall_mem_map, List.filter_eq_nil_iff, decide_eq_true_eq, not_not]
  rfl

/-- If a detection comes to findings with more identifiers allowed, it does so with fewer. -/
theorem exists_detect_of_allowing {more : List String} {found : Findings}
    (detected : ((audit.allowing more).detect roots storyboards).perform before = (.ok found, after)) :
    ∃ found after, (audit.detect roots storyboards).perform before = (.ok found, after) := by
  obtain ⟨corpus, paths, scanned, _, allowingEq, pathsEq, scanning, -⟩ := scanned_of_detect detected
  have corpusEq : audit.corpus roots storyboards before.disk = .ok corpus := allowingEq
  obtain ⟨plain, plainScanning⟩ : ∃ plain, audit.scanFiles corpus before.disk paths = .ok plain :=
    exists_scanFiles_iff.mpr (exists_scanFiles_iff.mp ⟨scanned, scanning⟩)
  obtain ⟨able, noted⟩ :=
    (exists_detect_allowing_iff more corpusEq pathsEq plainScanning).mp ⟨found, after, detected⟩
  refine (exists_detect_iff_of_scanFiles corpusEq pathsEq plainScanning).mpr ⟨able, fun item mem nothing => ?_⟩
  refine noted item mem fun i listed => ?_
  rw [nothing] at listed
  exact absurd listed List.not_mem_nil

/-- Allowing more identifiers than before makes no detection succeed that failed.  If one succeeded, it still
does exactly if the lines can be written on the files whose list becomes empty.  Then the identifiers that are
allowed now are struck from the findings, and these files join those that are noted as clean, each occurrence
at its place among those that were collected.  Where the lines on all the files can be written, allowing more
changes neither whether detection fails nor how. -/
theorem detect_of_allowing (more : List String) :
    (∀ found' after',
      ((audit.allowing more).detect roots storyboards).perform before = (.ok found', after') →
        ∃ found after, (audit.detect roots storyboards).perform before = (.ok found, after)) ∧
    (∀ found after, (audit.detect roots storyboards).perform before = (.ok found, after) →
      ∃ paths told, audit.resources roots before.disk = .ok paths ∧
        Writer.Announced audit.progress [corpusLine, scanLine paths.length] before.console told ∧
        Writer.Announced audit.notes
          ((paths.filter fun path => path ∉ found.entries.map (·.1)).map cleanLine)
          told after.console ∧
        ((∃ found' after',
            ((audit.allowing more).detect roots storyboards).perform before = (.ok found', after')) ↔
          ∀ path ∈ paths, found.Emptied more path → audit.CanNote path) ∧
        ∀ found' after',
          ((audit.allowing more).detect roots storyboards).perform before = (.ok found', after') →
            found' = found.without more ∧ after'.disk = after.disk ∧
            Writer.Announced audit.notes
              ((paths.filter fun path => path ∉ found.entries.map (·.1) ∨ found.Emptied more path).map
                cleanLine)
              told after'.console) ∧
    ((∀ paths, audit.resources roots before.disk = .ok paths → ∀ path ∈ paths, audit.CanNote path) →
      ∀ failure after,
        ((audit.allowing more).detect roots storyboards).perform before = (.error failure, after) ↔
          (audit.detect roots storyboards).perform before = (.error failure, after)) := by
  refine ⟨fun found' after' => exists_detect_of_allowing, fun found after detected => ?_,
    fun noted failure after => detect_allowing_eq_error_iff noted more⟩
  obtain ⟨corpus, paths, scanned, middle, corpusEq, pathsEq, scanning, told, taken⟩ :=
    scanned_of_detect detected
  obtain ⟨sources, -, joined⟩ := Except.bind_eq_ok_iff.mp corpusEq
  obtain ⟨text, reads⟩ := exists_texts joined scanning
  have resourceReads := (List.forall_mem_append.mp reads).2
  obtain rfl := scanned_eq_of_scanFiles scanning resourceReads
  obtain ⟨foundEq, sameDisk, announced⟩ := tallied_of_foldlM_take taken
  refine ⟨paths, middle.console, pathsEq, (Writer.announced_of_perform told).2, announced, ?_, ?_⟩
  · obtain ⟨able, noted⟩ :=
      (exists_detect_iff_of_scanFiles corpusEq pathsEq scanning).mp ⟨found, after, detected⟩
    rw [exists_detect_allowing_iff more corpusEq pathsEq scanning, and_iff_right able, foundEq]
    simp only [List.forall_mem_map] at noted ⊢
    refine forall₂_congr fun path mem => ?_
    rw [Findings.emptied_tallied_iff mem]
    constructor
    · rintro canNote ⟨-, all⟩
      exact canNote all
    · intro canNote all
      by_cases nothing : audit.condemned corpus.toList (text path) = []
      · exact noted path mem nothing
      · exact canNote ⟨nothing, all⟩
  · intro found' after' detected'
    obtain ⟨corpus', paths', scanned', middle', corpusEq', pathsEq', scanning', told', taken'⟩ :=
      scanned_of_detect detected'
    -- The two detections differ in the scan only.
    obtain rfl : corpus = corpus' := Except.ok.inj (corpusEq.symm.trans corpusEq')
    obtain rfl : paths = paths' := Except.ok.inj (pathsEq.symm.trans pathsEq')
    obtain rfl : middle = middle' := congrArg Prod.snd (told.symm.trans told')
    rw [scanned_eq_of_scanFiles scanning' resourceReads] at taken'
    simp only [condemned_allowing] at taken'
    obtain ⟨foundEq', sameDisk', announced'⟩ := tallied_of_foldlM_take taken'
    rw [Findings.tallied_filter_eq_without, ← foundEq] at foundEq'
    subst foundEq'
    rw [found.filter_not_mem_without foundEq] at announced'
    exact ⟨rfl, sameDisk'.trans sameDisk.symm, announced'⟩

/-- A file that is clean since it is referred to, one with an identifier that may come to be allowed, a file
that is clean since all of it is allowed, and one with that identifier and another. -/
def grantedDisk : Disk where
  root := .folder "app"
    (.file "a.strings" ⟨Charset.Utf8.encode "\"kept\" = \"1\";".toList, 0o644⟩
      (.file "b.strings" ⟨Charset.Utf8.encode "\"gone\" = \"1\";".toList, 0o644⟩
        (.file "c.strings" ⟨Charset.Utf8.encode "\"known\" = \"1\";".toList, 0o644⟩
          (.file "d.strings" ⟨Charset.Utf8.encode
            "\"lost\" = \"1\";\n\"gone\" = \"2\";\n\"lost\" = \"3\";".toList, 0o644⟩
            (.file "main.m" ⟨Charset.Utf8.encode "use(@\"kept\");".toList, 0o644⟩ .empty)))))
    .empty
  here := []

/-- Once the identifier is allowed on `grantedDisk`, only the other one is found, and the file with nothing
else is noted as clean between those that were. -/
theorem detect_of_allowing_grantedDisk :
    let audit : Audit := { allowed := ["known"], notes := some (Writer.err "utf-8") }
    let lines : List String → List String := fun paths => paths.map cleanLine
    ∃ after after' told,
      (audit.detect ["app"] false).perform { disk := grantedDisk } =
        (.ok ⟨[("app/b.strings", ["gone"]), ("app/d.strings", ["lost", "gone"])]⟩, after) ∧
      ((audit.allowing ["gone"]).detect ["app"] false).perform { disk := grantedDisk } =
        (.ok ⟨[("app/d.strings", ["lost"])]⟩, after') ∧
      Writer.Announced audit.notes (lines ["app/a.strings", "app/c.strings"]) told after.console ∧
      Writer.Announced audit.notes (lines ["app/a.strings", "app/b.strings", "app/c.strings"]) told
        after'.console := by
  intro audit lines
  have found : ((audit.detect ["app"] false).perform { disk := grantedDisk }).1 =
      .ok ⟨[("app/b.strings", ["gone"]), ("app/d.strings", ["lost", "gone"])]⟩ := by
    decide +kernel
  have pathsEq : audit.resources ["app"] grantedDisk =
      .ok ["app/a.strings", "app/b.strings", "app/c.strings", "app/d.strings"] := by
    decide +kernel
  have sound : ∀ w, audit.notes = some w → w.Sound := by
    rintro _ ⟨⟩
    exact .of_ascii (show Charset.meaning "utf-8" = .charset (.utf8 false) by decide +kernel) (by decide)
  obtain ⟨-, returned, -⟩ := detect_of_allowing ["gone"]
  obtain ⟨paths, told, pathsEq', -, clean, returns, struck⟩ := returned _ _ (Prod.ext found rfl)
  obtain rfl := Except.ok.inj (pathsEq.symm.trans pathsEq')
  obtain ⟨_, after', detected'⟩ := returns.mpr fun _ _ _ => Writer.canAnnounce_of_sound sound _
  obtain ⟨rfl, -, clean'⟩ := struck _ _ detected'
  exact ⟨_, after', told, Prod.ext found rfl, detected', clean, clean'⟩

/-- A file whose name is not in ASCII, with an identifier that may come to be allowed. -/
def accentedDisk : Disk where
  root := .folder "app"
    (.file "caf\u00E9.strings" ⟨Charset.Utf8.encode "\"gone\" = \"1\";".toList, 0o644⟩ .empty)
    .empty
  here := []

/-- In a character set that lacks its own name, the note on the file of `accentedDisk` is lost.  It is due only
once the identifier is allowed, so that detection fails then and did not before. -/
theorem detect_of_allowing_fails_accentedDisk :
    let audit : Audit := { notes := some (Writer.err "ascii\u00E9") }
    ((audit.detect ["app"] false).perform { disk := accentedDisk }).1 =
        .ok ⟨[("app/caf\u00E9.strings", ["gone"])]⟩ ∧
      ∀ found, (((audit.allowing ["gone"]).detect ["app"] false).perform { disk := accentedDisk }).1 ≠
        .ok found := by
  intro audit
  have failed : (((audit.allowing ["gone"]).detect ["app"] false).perform
      { disk := accentedDisk }).1.isOk = false := by
    decide +kernel
  refine ⟨by decide +kernel, fun found returned => ?_⟩
  rw [returned] at failed
  cases failed

end Audit

end StringAudit
