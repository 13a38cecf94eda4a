import StringAudit.Proofs.Delivery
import StringAudit.Proofs.Detection.Failing

/-!
# The exact result of a detection

A detection that succeeds condemns, for each resource file, the identifiers of its lines that are neither
allowed nor referred to by the joined texts of the source files, in order of first occurrence and each
once.  The files with such identifiers are recorded, in order of first occurrence; for each occurrence of
any other file there is one line, in the order of the files.  So whatever was collected is recorded or
noted.
-/

namespace StringAudit.Audit

variable {audit : Audit} {roots : List String} {storyboards : Bool}

/-- What is condemned in a text: the identifiers of its lines that are neither allowed nor referred to by
the corpus, in order of first occurrence and each once. -/
def condemned (audit : Audit) (corpus : List Char) (text : String) : List String :=
  (((Text.lines text.toList).filterMap Resource.nameOf?).filter fun i =>
    i ∉ audit.allowed ∧ ¬ Reference.Refers corpus i).eraseDups

/-- The line on a file without abandoned identifiers. -/
def cleanLine (path : String) : String :=
  path ++ " has no abandoned identifiers"

/-- A scan that succeeds condemns identifiers of the text. -/
theorem eq_condemned_of_scanFile {corpus path : String} {disk : Disk} {ids : List String}
    (scanned : audit.scanFile corpus path disk = .ok ids) :
    ∃ text, TextFile.read path disk = .ok text ∧ ids = audit.condemned corpus.toList text := by
  obtain ⟨text, names, readEq, extracted, rfl⟩ := scanFile_eq_ok_iff.mp scanned
  obtain ⟨-, rfl⟩ := Resource.identifiers_eq_ok_iff.mp extracted
  refine ⟨text, readEq, ?_⟩
  rw [dead, Reference.abandoned_eq, List.filter_filter, condemned]
  congr 2
  funext i
  by_cases known : i ∈ audit.allowed <;> simp [known]

/-- The corpus is the texts of the files, joined in their order. -/
theorem toList_joinedTexts {disk : Disk} {paths : List String} {corpus : String} {text : String → String}
    (joined : joinedTexts disk paths = .ok corpus)
    (reads : ∀ path ∈ paths, TextFile.read path disk = .ok (text path)) :
    corpus.toList = paths.flatMap fun path => (text path).toList := by
  induction paths generalizing corpus with
  | nil =>
      cases joined
      rfl
  | cons path rest ih =>
      obtain ⟨first, others, firstEq, othersEq, rfl⟩ := joinedTexts_cons_eq_ok_iff.mp joined
      obtain ⟨firstReads, restReads⟩ := List.forall_mem_cons.mp reads
      obtain rfl : first = text path := Except.ok.inj (firstEq.symm.trans firstReads)
      rw [String.toList_append, List.flatMap_cons, ih othersEq restReads]

/-- Taking scanned files records them and announces a line for each of them in which nothing was found.
-/
theorem announced_of_foldlM_take {scanned : List (String × List String)} {findings found : Findings}
    {before after : RunState}
    (taken : (scanned.foldlM audit.take findings).perform before = (.ok found, after)) :
    found = scanned.foldl Findings.tally findings ∧
      ((((scanned.filter fun item => item.2 = []).map fun item => cleanLine item.1).forM
        (Writer.announce audit.notes)).perform before = (.ok (), after)) := by
  induction scanned generalizing findings before with
  | nil =>
      cases taken
      exact ⟨rfl, rfl⟩
  | cons item rest ih =>
      obtain ⟨next, between, stepped, others⟩ := Action.perform_bind_eq_ok_iff.mp taken
      obtain ⟨foundEq, announced⟩ := ih others
      rw [take] at stepped
      rw [List.foldl_cons, Findings.tally]
      split at stepped
      · rename_i nothing
        obtain ⟨_, told, first, returned⟩ := Action.perform_bind_eq_ok_iff.mp stepped
        cases returned
        rw [if_pos nothing, List.filter_cons_of_pos (by simpa using nothing), List.map_cons]
        exact ⟨foundEq, Action.perform_bind_eq_ok_iff.mpr ⟨(), between, first, announced⟩⟩
      · rename_i something
        cases stepped
        rw [if_neg something, List.filter_cons_of_neg (by simpa using something)]
        exact ⟨foundEq, announced⟩

/-- Scanning files that are taken gives each of them what is condemned in its text. -/
theorem scanned_eq_of_scanFiles {corpus : String} {disk : Disk} {paths : List String}
    {scanned : List (String × List String)} {text : String → String}
    (scanning : audit.scanFiles corpus disk paths = .ok scanned)
    (reads : ∀ path ∈ paths, TextFile.read path disk = .ok (text path)) :
    scanned = paths.map fun path => (path, audit.condemned corpus.toList (text path)) := by
  obtain ⟨rfl, each⟩ := scanFiles_eq_ok_iff.mp scanning
  have whole : ∀ item ∈ scanned, id item = (item.1, audit.condemned corpus.toList (text item.1)) := by
    intro item mem
    obtain ⟨old, readEq, idsEq⟩ := eq_condemned_of_scanFile (each item mem)
    obtain rfl := Except.ok.inj (readEq.symm.trans (reads item.1 (List.mem_map_of_mem mem)))
    exact Prod.ext rfl idsEq
  rw [List.map_map]
  exact (List.map_id scanned).symm.trans (List.map_congr_left whole)

theorem foldlM_take_of_scanAll {corpus : String} {paths : List String} {found : Findings}
    {before after : RunState}
    (scanning : (audit.scanAll corpus paths).perform before = (.ok found, after)) :
    ∃ scanned, audit.scanFiles corpus before.disk paths = .ok scanned ∧
      (scanned.foldlM audit.take {}).perform before = (.ok found, after) := by
  rw [scanAll] at scanning
  split at scanning
  · rename_i nothing
    obtain rfl := List.isEmpty_iff.mp nothing
    exact ⟨[], rfl, scanning⟩
  split at scanning
  · cases scanning
  · obtain ⟨scanned, same, scannedEq, taken⟩ := Action.perform_bind_eq_ok_iff.mp scanning
    rw [Action.perform_ask, Prod.mk.injEq] at scannedEq
    obtain ⟨scannedEq, rfl⟩ := scannedEq
    exact ⟨scanned, scannedEq, taken⟩

/-- The steps of a detection that succeeds: it announces its progress, and then it scans and takes the
files. -/
theorem scanned_of_detect {before after : RunState} {found : Findings}
    (detected : (audit.detect roots storyboards).perform before = (.ok found, after)) :
    ∃ corpus paths scanned middle, audit.corpus roots storyboards before.disk = .ok corpus ∧
      audit.resources roots before.disk = .ok paths ∧
      audit.scanFiles corpus before.disk paths = .ok scanned ∧
      ([corpusLine, scanLine paths.length].forM (Writer.announce audit.progress)).perform before =
        (.ok (), middle) ∧
      (scanned.foldlM audit.take {}).perform middle = (.ok found, after) := by
  rw [detect_eq] at detected
  obtain ⟨_, first, started, detected⟩ := Action.perform_bind_eq_ok_iff.mp detected
  have firstDisk := ((Writer.looksOnly_announce _ _).frame started).1
  obtain ⟨corpus, _, corpusEq, detected⟩ := Action.perform_bind_eq_ok_iff.mp detected
  rw [Action.perform_ask, Prod.mk.injEq, firstDisk] at corpusEq
  obtain ⟨corpusEq, rfl⟩ := corpusEq
  obtain ⟨paths, _, pathsEq, detected⟩ := Action.perform_bind_eq_ok_iff.mp detected
  rw [Action.perform_ask, Prod.mk.injEq, firstDisk] at pathsEq
  obtain ⟨pathsEq, rfl⟩ := pathsEq
  obtain ⟨_, second, counted, scanning⟩ := Action.perform_bind_eq_ok_iff.mp detected
  have secondDisk := ((Writer.looksOnly_announce _ _).frame counted).1
  obtain ⟨scanned, scannedEq, taken⟩ := foldlM_take_of_scanAll scanning
  refine ⟨corpus, paths, scanned, second, corpusEq, pathsEq, ?_, ?_, taken⟩
  · rw [← firstDisk, ← secondDisk, scannedEq]
  · exact Action.perform_bind_eq_ok_iff.mpr ⟨(), first, started,
      Action.perform_bind_eq_ok_iff.mpr ⟨(), second, counted, rfl⟩⟩

/-- All files of a detection that succeeds have a text. -/
theorem exists_texts {disk : Disk} {sources paths : List String} {corpus : String}
    {scanned : List (String × List String)} (joined : joinedTexts disk sources = .ok corpus)
    (scanning : audit.scanFiles corpus disk paths = .ok scanned) :
    ∃ text : String → String, ∀ path ∈ sources ++ paths, TextFile.read path disk = .ok (text path) := by
  refine ⟨fun path => (TextFile.read path disk).toOption.getD "", fun path mem => ?_⟩
  obtain ⟨text, readEq⟩ : ∃ text, TextFile.read path disk = .ok text := by
    rcases List.mem_append.mp mem with source | resource
    · obtain ⟨text, readEq, -⟩ := isInfix_of_joinedTexts joined source
      exact ⟨text, readEq⟩
    · obtain ⟨rfl, each⟩ := scanFiles_eq_ok_iff.mp scanning
      obtain ⟨item, itemMem, rfl⟩ := List.mem_map.mp resource
      obtain ⟨text, readEq, -⟩ := eq_condemned_of_scanFile (each item itemMem)
      exact ⟨text, readEq⟩
  simp [readEq, Except.toOption]

/-- What a detection finds and writes, exactly: with the texts of the collected files, a resource file is
recorded with what is condemned in its text if that is anything, and there is a line for each occurrence
of every other one. -/
theorem detect_exactly {before after : RunState} {found : Findings}
    (detected : (audit.detect roots storyboards).perform before = (.ok found, after)) :
    ∃ (sources paths : List String) (text : String → String),
      audit.sources roots storyboards before.disk = .ok sources ∧
      audit.resources roots before.disk = .ok paths ∧
      (∀ path ∈ sources ++ paths, TextFile.read path before.disk = .ok (text path)) ∧
      let corpus := sources.flatMap fun source => (text source).toList
      let listed := fun path => audit.condemned corpus (text path)
      let clean := paths.filter fun path => listed path = []
      (∀ path ids, (path, ids) ∈ found.entries ↔ path ∈ paths ∧ ids = listed path ∧ ids ≠ []) ∧
      found.entries = ((paths.filter fun path => listed path ≠ []).eraseDups.map
        fun path => (path, listed path)) ∧
      (found.entries.map (·.1)).Nodup ∧
      (∀ path ∈ paths, path ∈ found.entries.map (·.1) ∨ path ∈ clean) ∧
      after.disk = before.disk ∧
      ∃ told, Writer.Announced audit.progress [corpusLine, scanLine paths.length] before.console told ∧
        Writer.Announced audit.notes (clean.map cleanLine) told after.console := by
  obtain ⟨corpus, paths, scanned, middle, corpusEq, pathsEq, scannedEq, told, taken⟩ :=
    scanned_of_detect detected
  obtain ⟨sources, sourcesEq, joined⟩ := Except.bind_eq_ok_iff.mp corpusEq
  obtain ⟨text, reads⟩ := exists_texts joined scannedEq
  obtain ⟨sourceReads, resourceReads⟩ := List.forall_mem_append.mp reads
  have corpusText := toList_joinedTexts joined sourceReads
  obtain ⟨foundEq, noted⟩ := announced_of_foldlM_take taken
  obtain ⟨middleDisk, progress⟩ := Writer.announced_of_perform told
  rw [scanned_eq_of_scanFiles scannedEq resourceReads, corpusText] at foundEq noted
  rw [List.filter_map, List.map_map] at noted
  obtain ⟨afterDisk, notes⟩ := Writer.announced_of_perform noted
  refine ⟨sources, paths, text, sourcesEq, pathsEq, reads, ?_⟩
  intro corpus listed clean
  rw [foundEq]
  refine ⟨fun path ids => Findings.mem_tallied_iff, Findings.entries_tallied listed paths,
    Findings.nodup_foldl_tally List.nodup_nil, ?_, afterDisk.trans middleDisk, middle.console, progress,
    notes⟩
  intro path mem
  rw [Findings.mem_tallied_paths_iff, List.mem_filter, decide_eq_true_iff]
  by_cases nothing : listed path = []
  · exact Or.inr ⟨mem, nothing⟩
  · exact Or.inl ⟨mem, nothing⟩

/-- A resource file with an identifier on two lines and an empty one, and another one below it in a
directory of its own, of which every identifier is allowed. -/
def overlapDisk : Disk where
  root := .folder "app"
    (.folder "inner" (.file "known.strings" ⟨Charset.Utf8.encode "\"known\" = \"1\";".toList, 0o644⟩ .empty)
      (.file "main.m" ⟨Charset.Utf8.encode "use(@\"kept\");".toList, 0o644⟩
        (.file "ui.strings" ⟨Charset.Utf8.encode
          "\"gone\" = \"1\";\n\"kept\" = \"2\";\n\"\" = \"3\";\n\"gone\" = \"4\";".toList, 0o644⟩ .empty)))
    .empty
  here := []

/-- Below two roots, one inside the other, the file of which everything is allowed is found twice and
noted twice, and the other one is recorded with its two identifiers. -/
theorem detect_exactly_overlapDisk :
    let audit : Audit := { allowed := ["known"], notes := some (Writer.err "utf-8") }
    ∃ after, (audit.detect ["app", "app/inner"] false).perform { disk := overlapDisk } =
        (.ok ⟨[("app/ui.strings", ["gone", ""])]⟩, after) ∧
      ∃ told, Writer.Announced audit.notes
        [cleanLine "app/inner/known.strings", cleanLine "app/inner/known.strings"] told after.console := by
  intro audit
  have found : ((audit.detect ["app", "app/inner"] false).perform { disk := overlapDisk }).1 =
      .ok ⟨[("app/ui.strings", ["gone", ""])]⟩ := by
    decide +kernel
  have pathsEq : audit.resources ["app", "app/inner"] overlapDisk =
      .ok ["app/ui.strings", "app/inner/known.strings", "app/inner/known.strings"] := by
    decide +kernel
  obtain ⟨sources, paths, text, -, pathsEq', -, recorded, -, -, -, -, told, -, noted⟩ :=
    detect_exactly (Prod.ext found rfl)
  obtain rfl := Except.ok.inj (pathsEq.symm.trans pathsEq')
  have only := fun path ids => (recorded path ids).symm.trans List.mem_singleton
  have first := ((only "app/ui.strings" ["gone", ""]).mpr rfl).2
  have second : audit.condemned (sources.flatMap fun source => (text source).toList)
      (text "app/inner/known.strings") = [] := by
    by_contra something
    have same := (only "app/inner/known.strings" _).mp ⟨by simp, rfl, something⟩
    have samePath : "app/inner/known.strings" = "app/ui.strings" := congrArg Prod.fst same
    exact absurd samePath (by decide)
  refine ⟨_, Prod.ext found rfl, told, ?_⟩
  rw [List.filter_cons_of_neg (by simp [← first.1])] at noted
  simpa [second] using noted

end StringAudit.Audit
