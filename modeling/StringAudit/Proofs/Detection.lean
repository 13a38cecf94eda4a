import Mathlib.Tactic.Common
import StringAudit.Detection
import StringAudit.Proofs.Detection.Tally
import StringAudit.Proofs.Reference
import StringAudit.Proofs.Resource.Removal
import StringAudit.Proofs.Writer

/-!
# What detection finds

Detection leaves the disk as it is, and its findings depend on the disk alone: they are the scanned
files that have abandoned identifiers, each with exactly those.  That no live identifier is reported
then rests on one fact about the corpus: the text of every source file is an infix of it.
-/

namespace StringAudit.Audit

variable {audit : Audit} {roots : List String} {storyboards : Bool} {disk : Disk}

/-! ## The corpus -/

theorem joinedTexts_cons_eq_ok_iff {path : String} {rest : List String} {corpus : String} :
    joinedTexts disk (path :: rest) = .ok corpus ↔
      ∃ text others, TextFile.read path disk = .ok text ∧ joinedTexts disk rest = .ok others ∧
        corpus = text ++ others := by
  simp only [joinedTexts, Except.bind_eq_ok_iff, pure, Except.pure, Except.ok.injEq]
  constructor
  · rintro ⟨text, read, others, joined, rfl⟩
    exact ⟨text, others, read, joined, rfl⟩
  · rintro ⟨text, others, read, joined, rfl⟩
    exact ⟨text, read, others, joined, rfl⟩

/-- The text of every joined file is an infix of the joined text. -/
theorem isInfix_of_joinedTexts {paths : List String} {corpus : String}
    (joined : joinedTexts disk paths = .ok corpus) {path : String} (mem : path ∈ paths) :
    ∃ text, TextFile.read path disk = .ok text ∧ text.toList <:+: corpus.toList := by
  induction paths generalizing corpus with
  | nil => simp at mem
  | cons first rest ih =>
      obtain ⟨text, others, read, joinedRest, rfl⟩ := joinedTexts_cons_eq_ok_iff.mp joined
      rw [String.toList_append]
      rcases List.mem_cons.mp mem with rfl | mem
      · exact ⟨text, read, (List.prefix_append _ _).isInfix⟩
      · obtain ⟨other, readOther, part⟩ := ih joinedRest mem
        exact ⟨other, readOther, part.trans (List.suffix_append _ _).isInfix⟩

/-! ## Scanning -/

/-- The identifiers that scanning finds abandoned among those of a text. -/
def dead (audit : Audit) (corpus : String) (names : List String) : List String :=
  Reference.abandoned corpus (names.filter fun i => !audit.allowed.contains i)

theorem mem_dead_iff {corpus : String} {names : List String} {i : String} :
    i ∈ audit.dead corpus names ↔
      i ∈ names ∧ i ∉ audit.allowed ∧ ¬ Reference.Refers corpus.toList i := by
  simp [dead, Reference.mem_abandoned_iff, and_assoc]

theorem scanFile_eq_ok_iff {corpus path : String} {ids : List String} :
    audit.scanFile corpus path disk = .ok ids ↔
      ∃ text names, TextFile.read path disk = .ok text ∧ Resource.identifiers text = .ok names ∧
        ids = audit.dead corpus names := by
  rw [scanFile, Except.bind_eq_ok_iff]
  constructor
  · rintro ⟨text, read, scanned⟩
    cases extracted : Resource.identifiers text with
    | ok names =>
        rw [extracted] at scanned
        cases scanned
        exact ⟨text, names, read, extracted, rfl⟩
    | error unclosed =>
        rw [extracted] at scanned
        cases scanned
  · rintro ⟨text, names, read, extracted, rfl⟩
    refine ⟨text, read, ?_⟩
    rw [extracted]
    rfl

theorem scanFiles_eq_ok_iff {corpus : String} {paths : List String}
    {scanned : List (String × List String)} :
    audit.scanFiles corpus disk paths = .ok scanned ↔
      scanned.map (·.1) = paths ∧
        ∀ entry ∈ scanned, audit.scanFile corpus entry.1 disk = .ok entry.2 := by
  induction paths generalizing scanned with
  | nil =>
      simp only [scanFiles, Except.ok.injEq, List.map_eq_nil_iff]
      constructor
      · rintro rfl
        simp
      · rintro ⟨rfl, _⟩
        rfl
  | cons path rest ih =>
      simp only [scanFiles, Except.bind_eq_ok_iff, pure, Except.pure, Except.ok.injEq]
      constructor
      · rintro ⟨ids, first, others, scannedRest, rfl⟩
        obtain ⟨paths, all⟩ := ih.mp scannedRest
        refine ⟨by simp [paths], ?_⟩
        rintro entry mem
        rcases List.mem_cons.mp mem with rfl | mem
        · exact first
        · exact all entry mem
      · rintro ⟨paths, all⟩
        cases scanned with
        | nil => simp at paths
        | cons entry others =>
            rw [List.map_cons, List.cons.injEq] at paths
            obtain ⟨rfl, paths⟩ := paths
            refine ⟨entry.2, all entry List.mem_cons_self, others, ih.mpr ⟨paths, ?_⟩, rfl⟩
            exact fun other mem => all other (List.mem_cons_of_mem entry mem)

/-! ## Detection -/

/-- The findings of a detection that succeeds, in terms of the disk: `corpus` is the joined text of
the source files, `paths` are the resource files, all of them can be scanned, and the entries are
the files with abandoned identifiers, each once. -/
structure Finds (audit : Audit) (roots : List String) (storyboards : Bool) (disk : Disk)
    (corpus : String) (paths : List String) (found : Findings) : Prop where
  corpus_eq : audit.corpus roots storyboards disk = .ok corpus
  paths_eq : audit.resources roots disk = .ok paths
  scanned : ∀ path ∈ paths, ∃ ids, audit.scanFile corpus path disk = .ok ids
  mem_entries : ∀ path ids, (path, ids) ∈ found.entries ↔
    path ∈ paths ∧ audit.scanFile corpus path disk = .ok ids ∧ ids ≠ []
  distinct : (found.entries.map (·.1)).Nodup

/-- The files of findings can be read. -/
theorem Finds.readable {corpus : String} {paths : List String} {found : Findings}
    (finds : audit.Finds roots storyboards disk corpus paths found) {entry : String × List String}
    (mem : entry ∈ found.entries) : ∃ text, TextFile.read entry.1 disk = .ok text := by
  obtain ⟨_, scanned, _⟩ := (finds.mem_entries entry.1 entry.2).mp mem
  obtain ⟨text, _, readEq, _⟩ := scanFile_eq_ok_iff.mp scanned
  exact ⟨text, readEq⟩

theorem looksOnly_take (findings : Findings) (scanned : String × List String) :
    (audit.take findings scanned).LooksOnly := by
  rw [take]
  split
  · exact .bind (Writer.looksOnly_announce _ _) fun _ => .pure _
  · exact .pure _

theorem looksOnly_scanAll (corpus : String) (paths : List String) :
    (audit.scanAll corpus paths).LooksOnly := by
  rw [scanAll]
  split
  · exact .pure _
  · split
    · exact .throw _
    · refine .bind (.ask _) fun scanned => ?_
      exact .foldlM (fun findings item _ => looksOnly_take findings item) {}

theorem looksOnly_announce_scanAll (audit : Audit) (line : String) (corpus : String) (paths : List String) :
    Action.LooksOnly (Writer.announce audit.progress line >>= fun _ => audit.scanAll corpus paths) :=
  .bind (Writer.looksOnly_announce _ _) fun _ => looksOnly_scanAll corpus paths

/-- Detection leaves the disk as it is. -/
theorem looksOnly_detect (roots : List String) (storyboards : Bool) :
    (audit.detect roots storyboards).LooksOnly := by
  rw [detect]
  refine .bind (Writer.looksOnly_announce _ _) fun _ => ?_
  refine .bind (.ask _) fun corpus => ?_
  refine .bind (.ask _) fun paths => ?_
  exact audit.looksOnly_announce_scanAll _ corpus paths

/-- The line on a file without abandoned identifiers can be written, if there is a writer for it. -/
def CanNote (audit : Audit) (path : String) : Prop :=
  Writer.CanAnnounce audit.notes (path ++ " has no abandoned identifiers")

theorem seen_take_eq_ok_iff {findings taken : Findings} {scanned : String × List String} :
    (audit.take findings scanned).seen disk = .ok taken ↔
      taken = findings.tally scanned ∧ (scanned.2 = [] → audit.CanNote scanned.1) := by
  rw [take, Findings.tally]
  split
  · rename_i nothing
    rw [Writer.seen_announce_bind_eq_ok_iff (.pure _), Action.seen_pure, Except.ok.injEq]
    simp only [List.isEmpty_iff.mp nothing, forall_const, CanNote, and_comm, eq_comm]
  · rename_i something
    have nonempty : scanned.2 ≠ [] := fun empty => something (by simp [empty])
    simp [nonempty, eq_comm]

/-- Scanned files are tallied one after the other. -/
theorem seen_foldlM_take_eq_ok_iff {scanned : List (String × List String)} {findings found : Findings} :
    (scanned.foldlM audit.take findings).seen disk = .ok found ↔
      found = scanned.foldl Findings.tally findings ∧
        ∀ item ∈ scanned, item.2 = [] → audit.CanNote item.1 := by
  induction scanned generalizing findings with
  | nil => simp [eq_comm]
  | cons item rest ih =>
      have onward : ∀ b, (rest.foldlM audit.take b).LooksOnly :=
        .foldlM fun findings item _ => looksOnly_take findings item
      rw [List.foldlM_cons, (looksOnly_take findings item).seen_bind_eq_ok_iff onward]
      simp only [seen_take_eq_ok_iff, ih, List.foldl_cons, List.forall_mem_cons]
      constructor
      · rintro ⟨_, ⟨rfl, noted⟩, rfl, others⟩
        exact ⟨rfl, noted, others⟩
      · rintro ⟨rfl, noted, others⟩
        exact ⟨_, ⟨rfl, noted⟩, rfl, others⟩

theorem seen_scanAll_eq_ok_iff {corpus : String} {paths : List String} {found : Findings} :
    (audit.scanAll corpus paths).seen disk = .ok found ↔
      (paths ≠ [] → audit.workers.any (· < 1) = false) ∧
        ∃ scanned, audit.scanFiles corpus disk paths = .ok scanned ∧
          found = scanned.foldl Findings.tally {} ∧
          ∀ item ∈ scanned, item.2 = [] → audit.CanNote item.1 := by
  rw [scanAll]
  split
  · rename_i none
    obtain rfl := List.isEmpty_iff.mp none
    constructor
    · intro seen
      obtain rfl := Except.ok.inj seen
      exact ⟨fun some => absurd rfl some, [], rfl, rfl, fun _ mem => absurd mem List.not_mem_nil⟩
    · rintro ⟨_, scanned, scannedEq, rfl, _⟩
      cases scannedEq
      rfl
  · rename_i some
    have nonempty : paths ≠ [] := fun empty => some (by simp [empty])
    split
    · rename_i unusable
      refine iff_of_false (by simp) ?_
      rintro ⟨usable, _⟩
      rw [usable nonempty] at unusable
      cases unusable
    · rename_i usable
      rw [Bool.not_eq_true] at usable
      rw [Action.seen_ask_bind_eq_ok_iff fun scanned =>
        .foldlM (fun findings item _ => looksOnly_take findings item) {}]
      simp only [usable, implies_true, true_and, seen_foldlM_take_eq_ok_iff]

/-- Detection succeeds exactly when everything can be searched, read, scanned and announced. -/
theorem seen_detect_eq_ok_iff {found : Findings} :
    (audit.detect roots storyboards).seen disk = .ok found ↔
      Writer.CanAnnounce audit.progress "[1/2] Building source corpus..." ∧
        ∃ corpus, audit.corpus roots storyboards disk = .ok corpus ∧
          ∃ paths, audit.resources roots disk = .ok paths ∧
            Writer.CanAnnounce audit.progress
              ("[2/2] Scanning " ++ toString paths.length ++ " resource files...") ∧
            (audit.scanAll corpus paths).seen disk = .ok found := by
  have counted := fun corpus (paths : List String) => audit.looksOnly_announce_scanAll
    ("[2/2] Scanning " ++ toString paths.length ++ " resource files...") corpus paths
  have listed := fun corpus => Action.LooksOnly.bind (.ask (audit.resources roots)) (counted corpus)
  rw [detect, Writer.seen_announce_bind_eq_ok_iff (.bind (.ask _) listed)]
  simp only [Action.seen_ask_bind_eq_ok_iff listed, Action.seen_ask_bind_eq_ok_iff (counted _),
    Writer.seen_announce_bind_eq_ok_iff (looksOnly_scanAll _ _)]

theorem finds_of_seen_detect {found : Findings}
    (detected : (audit.detect roots storyboards).seen disk = .ok found) :
    ∃ corpus paths, audit.Finds roots storyboards disk corpus paths found := by
  obtain ⟨_, corpus, corpusEq, paths, pathsEq, _, scanning⟩ := seen_detect_eq_ok_iff.mp detected
  obtain ⟨_, scanned, scannedEq, rfl, _⟩ := seen_scanAll_eq_ok_iff.mp scanning
  obtain ⟨rfl, each⟩ := scanFiles_eq_ok_iff.mp scannedEq
  refine ⟨corpus, scanned.map (·.1), corpusEq, pathsEq, ?_, ?_, ?_⟩
  · intro path mem
    obtain ⟨entry, entryMem, rfl⟩ := List.mem_map.mp mem
    exact ⟨entry.2, each entry entryMem⟩
  · -- Files of one path agree, because a scan depends on the path alone.
    have follows : Findings.Follows
        (fun path => (audit.scanFile corpus path disk).toOption.getD []) scanned := by
      intro entry mem
      simp [each entry mem, Except.toOption]
    intro path ids
    rw [Findings.mem_foldl_tally_iff follows]
    constructor
    · rintro ⟨mem, nonempty⟩
      exact ⟨List.mem_map.mpr ⟨(path, ids), mem, rfl⟩, each (path, ids) mem, nonempty⟩
    · rintro ⟨mem, scannedPath, nonempty⟩
      obtain ⟨entry, entryMem, rfl⟩ := List.mem_map.mp mem
      rw [each entry entryMem, Except.ok.injEq] at scannedPath
      subst ids
      exact ⟨entryMem, nonempty⟩
  · exact Findings.nodup_foldl_tally List.nodup_nil

/-- What detection finds depends on the disk alone. -/
theorem finds_of_perform_detect {before after : RunState} {found : Findings}
    (detected : (audit.detect roots storyboards).perform before = (.ok found, after)) :
    ∃ corpus paths, audit.Finds roots storyboards before.disk corpus paths found :=
  finds_of_seen_detect
    ((looksOnly_detect roots storyboards).exists_perform_eq_ok_iff.mp ⟨after, detected⟩)

/-! ## Detecting again -/

/-- The line on every file in which detection found nothing could be written. -/
theorem canNote_of_seen_detect {corpus : String} {paths : List String} {found : Findings}
    (detected : (audit.detect roots storyboards).seen disk = .ok found)
    (finds : audit.Finds roots storyboards disk corpus paths found) {path : String} (mem : path ∈ paths)
    (nothing : ∀ ids, (path, ids) ∉ found.entries) : audit.CanNote path := by
  obtain ⟨_, corpus', corpusEq, paths', pathsEq, _, scanning⟩ := seen_detect_eq_ok_iff.mp detected
  obtain rfl : corpus = corpus' := Except.ok.inj (finds.corpus_eq.symm.trans corpusEq)
  obtain rfl : paths = paths' := Except.ok.inj (finds.paths_eq.symm.trans pathsEq)
  obtain ⟨_, scanned, scannedEq, _, noted⟩ := seen_scanAll_eq_ok_iff.mp scanning
  obtain ⟨rfl, each⟩ := scanFiles_eq_ok_iff.mp scannedEq
  obtain ⟨item, itemMem, rfl⟩ := List.mem_map.mp mem
  refine noted item itemMem ?_
  by_contra nonempty
  exact nothing item.2 ((finds.mem_entries item.1 item.2).mpr ⟨mem, each item itemMem, nonempty⟩)

/-- On a disk with the same corpus and the same resource files, detection succeeds again and finds
nothing exactly when no scan finds anything. -/
theorem seen_detect_eq_empty_iff {first : Disk} {corpus : String} {paths : List String}
    {found : Findings} (detected : (audit.detect roots storyboards).seen first = .ok found)
    (finds : audit.Finds roots storyboards first corpus paths found)
    (notes : ∀ entry ∈ found.entries, audit.CanNote entry.1)
    (corpusEq : audit.corpus roots storyboards disk = .ok corpus)
    (pathsEq : audit.resources roots disk = .ok paths) :
    (audit.detect roots storyboards).seen disk = .ok {} ↔
      ∀ path ∈ paths, audit.scanFile corpus path disk = .ok [] := by
  constructor
  · intro seen path mem
    obtain ⟨corpus', paths', again⟩ := finds_of_seen_detect seen
    obtain rfl : corpus = corpus' := Except.ok.inj (corpusEq.symm.trans again.corpus_eq)
    obtain rfl : paths = paths' := Except.ok.inj (pathsEq.symm.trans again.paths_eq)
    obtain ⟨ids, scanned⟩ := again.scanned path mem
    by_cases empty : ids = []
    · rw [scanned, empty]
    · exact absurd ((again.mem_entries path ids).mpr ⟨mem, scanned, empty⟩) List.not_mem_nil
  · intro clean
    obtain ⟨started, _, firstCorpus, paths', firstPaths, counted, scanning⟩ :=
      seen_detect_eq_ok_iff.mp detected
    obtain rfl : paths = paths' := Except.ok.inj (finds.paths_eq.symm.trans firstPaths)
    obtain ⟨usable, _⟩ := seen_scanAll_eq_ok_iff.mp scanning
    refine seen_detect_eq_ok_iff.mpr ⟨started, corpus, corpusEq, paths, pathsEq, counted, ?_⟩
    refine seen_scanAll_eq_ok_iff.mpr ⟨usable, paths.map (·, []), ?_, ?_, ?_⟩
    · refine scanFiles_eq_ok_iff.mpr ⟨by simp [Function.comp_def], ?_⟩
      rintro item mem
      obtain ⟨path, pathMem, rfl⟩ := List.mem_map.mp mem
      exact clean path pathMem
    · exact (Findings.tallied_nothing paths).symm
    · rintro item mem _
      obtain ⟨path, pathMem, rfl⟩ := List.mem_map.mp mem
      by_cases listed : ∃ ids, (path, ids) ∈ found.entries
      · obtain ⟨ids, listedMem⟩ := listed
        exact notes (path, ids) listedMem
      · exact canNote_of_seen_detect detected finds pathMem (not_exists.mp listed)

/-! ## No live identifier is reported -/

/-- A source file with a reference keeps an identifier out of the findings. -/
theorem not_refers_of_mem_entries {corpus : String} {paths : List String} {found : Findings}
    (finds : audit.Finds roots storyboards disk corpus paths found) {path : String}
    {ids : List String} (entry : (path, ids) ∈ found.entries) {i : String} (mem : i ∈ ids)
    {text : String} (part : text.toList <:+: corpus.toList) :
    ¬ Reference.Refers text.toList i := by
  obtain ⟨_, scanned, _⟩ := (finds.mem_entries path ids).mp entry
  obtain ⟨_, _, _, _, rfl⟩ := scanFile_eq_ok_iff.mp scanned
  intro refers
  exact (mem_dead_iff.mp mem).2.2 (refers.mono part)

/-- Detection reports no live identifier: whatever it reports for a file occurs in none of the three
quoted forms in the text of any source file below the roots, is not allowed, and is named by a line
of that file. -/
theorem detect_reports_dead {before after : RunState} {found : Findings}
    (detected : (audit.detect roots storyboards).perform before = (.ok found, after)) :
    ∃ sources, audit.sources roots storyboards before.disk = .ok sources ∧
      ∀ path ids, (path, ids) ∈ found.entries → ∀ i ∈ ids,
        (∀ source ∈ sources, ∃ text, TextFile.read source before.disk = .ok text ∧
          ∀ form ∈ Reference.forms i, ¬ form.toList <:+: text.toList) ∧
        i ∉ audit.allowed ∧
        ∃ text, TextFile.read path before.disk = .ok text ∧
          ∃ line ∈ Text.lines text.toList, Resource.Names line i := by
  obtain ⟨corpus, paths, finds⟩ := finds_of_perform_detect detected
  obtain ⟨sources, sourcesEq, joined⟩ := Except.bind_eq_ok_iff.mp finds.corpus_eq
  refine ⟨sources, sourcesEq, fun path ids entry i mem => ⟨?_, ?_, ?_⟩⟩
  · intro source sourceMem
    obtain ⟨text, read, part⟩ := isInfix_of_joinedTexts joined sourceMem
    refine ⟨text, read, fun form formMem occurs => ?_⟩
    exact not_refers_of_mem_entries finds entry mem part ⟨form, formMem, occurs⟩
  all_goals
    obtain ⟨_, scanned, _⟩ := (finds.mem_entries path ids).mp entry
    obtain ⟨text, names, read, extracted, rfl⟩ := scanFile_eq_ok_iff.mp scanned
    obtain ⟨nameMem, unallowed, _⟩ := mem_dead_iff.mp mem
  · exact unallowed
  · obtain ⟨_, rfl⟩ := Resource.identifiers_eq_ok_iff.mp extracted
    obtain ⟨line, lineMem, named⟩ := List.mem_filterMap.mp nameMem
    exact ⟨text, read, line, lineMem, Resource.nameOf?_eq_some_iff.mp named⟩

/-- A source file that refers to one of the two identifiers of a resource file. -/
def smallDisk : Disk where
  root := .folder "app"
    (.file "main.m" ⟨Charset.Utf8.encode "use(@\"kept\");".toList, 0o644⟩
      (.file "ui.strings"
        ⟨Charset.Utf8.encode "\"kept\" = \"a\";\n \"gone\" = \"b\";".toList, 0o644⟩ .empty))
    .empty
  here := []

/-- What is reported for `smallDisk` is the other identifier, and it is dead. -/
theorem detect_reports_dead_smallDisk :
    (({} : Audit).detect ["app"] false).perform { disk := smallDisk } =
        (.ok ⟨[("app/ui.strings", ["gone"])]⟩, { disk := smallDisk }) ∧
      ∃ text, TextFile.read "app/main.m" smallDisk = .ok text ∧
        ∀ form ∈ Reference.forms "gone", ¬ form.toList <:+: text.toList := by
  have detected : (({} : Audit).detect ["app"] false).perform { disk := smallDisk } =
      (.ok ⟨[("app/ui.strings", ["gone"])]⟩, { disk := smallDisk }) := by
    decide +kernel
  have sourcesEq : ({} : Audit).sources ["app"] false smallDisk = .ok ["app/main.m"] := by
    decide +kernel
  obtain ⟨sources, sourcesEq', dead⟩ := detect_reports_dead detected
  obtain rfl : ["app/main.m"] = sources := Except.ok.inj (sourcesEq.symm.trans sourcesEq')
  have gone := dead "app/ui.strings" ["gone"] List.mem_cons_self "gone" List.mem_cons_self
  exact ⟨detected, gone.1 "app/main.m" List.mem_cons_self⟩

end StringAudit.Audit
