import StringAudit.Proofs.Collection
import StringAudit.Proofs.Detection

/-!
# The order of the roots

Roots in another order give the same source files in another order, and so a corpus of the same texts
in another order.  A reference inside one text is in both corpora.  One corpus may refer to an identifier
to which the other does not only across the border of texts, where the end of one and the beginning of
the next make up a quoted form.
-/

namespace StringAudit

namespace Collection

/-- What is found below roots is what is found below each of them. -/
theorem collect_eq_flatMap {disk : Disk} {search : Search} {roots files : List String}
    (collected : collect disk search roots = .ok files) :
    files = roots.flatMap fun root => (collectRoot disk search root).toOption.getD [] := by
  induction roots generalizing files with
  | nil => exact (Except.ok.inj collected).symm
  | cons root rest ih =>
      obtain ⟨first, others, firstEq, othersEq, rfl⟩ := collect_cons_eq_ok_iff.mp collected
      rw [List.flatMap_cons, ← ih othersEq, firstEq]
      rfl

/-- The same roots have the same files below them. -/
theorem perm_of_collect {disk : Disk} {search : Search} {roots roots' files files' : List String}
    (perm : roots.Perm roots') (collected : collect disk search roots = .ok files)
    (collected' : collect disk search roots' = .ok files') : files.Perm files' := by
  rw [collect_eq_flatMap collected, collect_eq_flatMap collected']
  exact perm.flatMap_right _

end Collection

/-- Findings report an identifier in a file. -/
def Findings.Reports (found : Findings) (path i : String) : Prop :=
  ∃ ids, (path, ids) ∈ found.entries ∧ i ∈ ids

namespace Audit

variable {audit : Audit} {roots roots' : List String} {storyboards : Bool} {disk : Disk}
  {corpus corpus' : String} {paths paths' : List String} {found found' : Findings}

/-- A resource file has an identifier that is not allowed. -/
def Asks (audit : Audit) (disk : Disk) (path i : String) : Prop :=
  ∃ text names, TextFile.read path disk = .ok text ∧ Resource.identifiers text = .ok names ∧
    i ∈ names ∧ i ∉ audit.allowed

theorem mem_of_scanFile {path i : String} {ids : List String}
    (scanned : audit.scanFile corpus path disk = .ok ids) :
    i ∈ ids ↔ audit.Asks disk path i ∧ ¬ Reference.Refers corpus.toList i := by
  obtain ⟨text, names, readEq, namesEq, rfl⟩ := scanFile_eq_ok_iff.mp scanned
  rw [mem_dead_iff]
  constructor
  · rintro ⟨mem, unknown, dead⟩
    exact ⟨⟨text, names, readEq, namesEq, mem, unknown⟩, dead⟩
  · rintro ⟨⟨text', names', readEq', namesEq', mem, unknown⟩, dead⟩
    obtain rfl : text = text' := Except.ok.inj (readEq.symm.trans readEq')
    obtain rfl : names = names' := Except.ok.inj (namesEq.symm.trans namesEq')
    exact ⟨mem, unknown, dead⟩

/-- Findings report what the resource files ask for and the corpus does not refer to. -/
theorem Finds.reports_iff (finds : audit.Finds roots storyboards disk corpus paths found)
    {path i : String} :
    found.Reports path i ↔
      path ∈ paths ∧ audit.Asks disk path i ∧ ¬ Reference.Refers corpus.toList i := by
  constructor
  · rintro ⟨ids, mem, listed⟩
    obtain ⟨pathMem, scanned, -⟩ := (finds.mem_entries path ids).mp mem
    exact ⟨pathMem, (mem_of_scanFile scanned).mp listed⟩
  · rintro ⟨pathMem, asked⟩
    obtain ⟨ids, scanned⟩ := finds.scanned path pathMem
    have listed := (mem_of_scanFile scanned).mpr asked
    exact ⟨ids, (finds.mem_entries path ids).mpr ⟨pathMem, scanned, List.ne_nil_of_mem listed⟩, listed⟩

/-- A scan depends on the corpus only by its references to what the file asks for. -/
theorem scanFile_congr {path : String} {ids : List String}
    (same : ∀ i, audit.Asks disk path i →
      (Reference.Refers corpus.toList i ↔ Reference.Refers corpus'.toList i))
    (scanned : audit.scanFile corpus path disk = .ok ids) :
    audit.scanFile corpus' path disk = .ok ids := by
  obtain ⟨text, names, readEq, namesEq, rfl⟩ := scanFile_eq_ok_iff.mp scanned
  refine scanFile_eq_ok_iff.mpr ⟨text, names, readEq, namesEq, ?_⟩
  refine Reference.abandoned_congr fun i mem => same i ?_
  rw [List.mem_filter, Bool.not_eq_true', ← Bool.not_eq_true, List.contains_iff_mem] at mem
  exact ⟨text, names, readEq, namesEq, mem⟩

/-- Two detections of the same resource files find the same exactly when their corpora refer to the
same identifiers, among those that the files ask for. -/
theorem Finds.entries_iff (finds : audit.Finds roots storyboards disk corpus paths found)
    (finds' : audit.Finds roots' storyboards disk corpus' paths' found')
    (samePaths : ∀ path, path ∈ paths ↔ path ∈ paths') :
    (∀ path ids, (path, ids) ∈ found.entries ↔ (path, ids) ∈ found'.entries) ↔
      ∀ path ∈ paths, ∀ i, audit.Asks disk path i →
        (Reference.Refers corpus.toList i ↔ Reference.Refers corpus'.toList i) := by
  constructor
  · intro same path mem i asked
    have reports : found.Reports path i ↔ found'.Reports path i := by
      simp only [Findings.Reports, same]
    rw [finds.reports_iff, finds'.reports_iff, ← samePaths path] at reports
    simpa [mem, asked, not_iff_not] using reports
  · intro same path ids
    rw [finds.mem_entries, finds'.mem_entries, ← samePaths path]
    constructor
    · rintro ⟨mem, scanned, nonempty⟩
      exact ⟨mem, scanFile_congr (same path mem) scanned, nonempty⟩
    · rintro ⟨mem, scanned, nonempty⟩
      exact ⟨mem, scanFile_congr (fun i asked => (same path mem i asked).symm) scanned, nonempty⟩

/-- Roots in another order give the corpus of the same source files in another order.  Detection finds
the same exactly when both corpora refer to the same identifiers, among those that the resource files
ask for.  An identifier that only one detection reports is referred to by the corpus of the other, but
by no source file alone. -/
theorem detect_of_perm {before after after' : RunState} (perm : roots.Perm roots')
    (detected : (audit.detect roots storyboards).perform before = (.ok found, after))
    (detected' : (audit.detect roots' storyboards).perform before = (.ok found', after')) :
    ∃ sources sources' corpus corpus' paths, sources.Perm sources' ∧
      audit.sources roots storyboards before.disk = .ok sources ∧
      audit.sources roots' storyboards before.disk = .ok sources' ∧
      joinedTexts before.disk sources = .ok corpus ∧ joinedTexts before.disk sources' = .ok corpus' ∧
      audit.resources roots before.disk = .ok paths ∧
      ((∀ path ids, (path, ids) ∈ found.entries ↔ (path, ids) ∈ found'.entries) ↔
        ∀ path ∈ paths, ∀ i, audit.Asks before.disk path i →
          (Reference.Refers corpus.toList i ↔ Reference.Refers corpus'.toList i)) ∧
      ∀ path i, found.Reports path i → ¬ found'.Reports path i →
        Reference.Refers corpus'.toList i ∧ ∀ source ∈ sources, ∀ text : String,
          TextFile.read source before.disk = .ok text → ¬ Reference.Refers text.toList i := by
  obtain ⟨corpus, paths, finds⟩ := finds_of_perform_detect detected
  obtain ⟨corpus', paths', finds'⟩ := finds_of_perform_detect detected'
  obtain ⟨sources, sourcesEq, joined⟩ := Except.bind_eq_ok_iff.mp finds.corpus_eq
  obtain ⟨sources', sourcesEq', joined'⟩ := Except.bind_eq_ok_iff.mp finds'.corpus_eq
  have samePaths := fun path =>
    (Collection.perm_of_collect perm finds.paths_eq finds'.paths_eq).mem_iff (a := path)
  refine ⟨sources, sources', corpus, corpus', paths,
    Collection.perm_of_collect perm sourcesEq sourcesEq', sourcesEq, sourcesEq', joined, joined',
    finds.paths_eq, finds.entries_iff finds' samePaths, ?_⟩
  intro path i reported unreported
  obtain ⟨mem, asked, dead⟩ := finds.reports_iff.mp reported
  rw [finds'.reports_iff, ← samePaths path] at unreported
  refine ⟨by simpa [mem, asked] using unreported, ?_⟩
  intro source sourceMem text readEq refers
  obtain ⟨text', readEq', part⟩ := isInfix_of_joinedTexts joined sourceMem
  obtain rfl : text = text' := Except.ok.inj (readEq.symm.trans readEq')
  exact dead (refers.mono part)

/-- Two source files that make up a reference where the end of the first meets the beginning of the
second. -/
def borderDisk : Disk where
  root := .folder "a"
    (.file "one.m" ⟨Charset.Utf8.encode "use(\"go".toList, 0o644⟩
      (.file "ui.strings" ⟨Charset.Utf8.encode "\"gone\" = \"1\";".toList, 0o644⟩ .empty))
    (.folder "b" (.file "two.m" ⟨Charset.Utf8.encode "ne\");".toList, 0o644⟩ .empty) .empty)
  here := []

theorem detect_ab : (({} : Audit).detect ["a", "b"] false).perform { disk := borderDisk } =
    (.ok {}, { disk := borderDisk }) := by
  decide +kernel

theorem detect_ba : (({} : Audit).detect ["b", "a"] false).perform { disk := borderDisk } =
    (.ok ⟨[("a/ui.strings", ["gone"])]⟩, { disk := borderDisk }) := by
  decide +kernel

/-- On `borderDisk` no source file refers to the identifier that is reported below `b` and `a`, and the
corpus below `a` and `b` does. -/
theorem detect_of_perm_borderDisk :
    ∃ sources corpus, ({} : Audit).sources ["b", "a"] false borderDisk = .ok sources ∧
      ({} : Audit).corpus ["a", "b"] false borderDisk = .ok corpus ∧
      Reference.Refers corpus.toList "gone" ∧ ∀ source ∈ sources, ∀ text : String,
        TextFile.read source borderDisk = .ok text → ¬ Reference.Refers text.toList "gone" := by
  obtain ⟨sources, _, _, corpus, _, _, sourcesEq, sourcesEq', _, joined, _, _, onlyAcross⟩ :=
    detect_of_perm (List.Perm.swap "a" "b" []) detect_ba detect_ab
  have reported : (⟨[("a/ui.strings", ["gone"])]⟩ : Findings).Reports "a/ui.strings" "gone" :=
    ⟨["gone"], List.mem_singleton_self _, List.mem_singleton_self _⟩
  have unreported : ¬ ({} : Findings).Reports "a/ui.strings" "gone" := by
    rintro ⟨_, mem, -⟩
    exact absurd mem List.not_mem_nil
  obtain ⟨refers, nowhere⟩ := onlyAcross "a/ui.strings" "gone" reported unreported
  exact ⟨sources, corpus, sourcesEq, Except.bind_eq_ok_iff.mpr ⟨_, sourcesEq', joined⟩, refers, nowhere⟩

/-- Two orders of the roots of `borderDisk` give different findings. -/
theorem detect_ne_of_perm_borderDisk :
    ["a", "b"].Perm ["b", "a"] ∧ ∃ found found' : Findings,
      (({} : Audit).detect ["a", "b"] false).perform { disk := borderDisk } =
        (.ok found, { disk := borderDisk }) ∧
      (({} : Audit).detect ["b", "a"] false).perform { disk := borderDisk } =
        (.ok found', { disk := borderDisk }) ∧
      ∃ path ids, (path, ids) ∈ found'.entries ∧ (path, ids) ∉ found.entries :=
  ⟨List.Perm.swap "b" "a" [], _, _, detect_ab, detect_ba, "a/ui.strings", ["gone"],
    List.mem_singleton_self _, List.not_mem_nil⟩

end Audit

end StringAudit
