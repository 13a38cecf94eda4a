import StringAudit.Proofs.Charset.Reading
import StringAudit.Proofs.Cleanup.Remains
import StringAudit.Proofs.Collection
import StringAudit.Proofs.Detection

/-!
# Detecting again after cleaning

Cleaning every file of the findings leaves nothing to find.  The source files are still the same,
because a source file that is also a file of findings would refer to its own identifiers.  Of every
cleaned file the lines that are left were there before and name nothing abandoned, but for a first
line that may have lost a mark when it was read back.
-/

namespace StringAudit

/-- The directories of a disk are in order, and a path can go by every name. -/
structure Disk.WellFormed (disk : Disk) : Prop where
  ascending : disk.root.Ascending
  named : disk.root.Named

namespace Audit

open Cleanup

variable {audit : Audit} {roots : List String} {storyboards : Bool} {first disk : Disk} {corpus : String}
  {paths : List String} {found : Findings}

/-! ## Lines in which nothing is found -/

/-- Nothing is found in a line: it is not unfinished, and an identifier that it names is allowed or
referred to. -/
def Quiet (audit : Audit) (corpus : String) (line : List Char) : Prop :=
  ¬ Resource.Unfinished line ∧
    ∀ i, Resource.Names line i → i ∈ audit.allowed ∨ Reference.Refers corpus.toList i

theorem quiet_nil : audit.Quiet corpus [] := by
  refine ⟨Resource.not_unfinished_nil, ?_⟩
  intro i named
  rw [← Resource.nameOf?_eq_some_iff, Resource.nameOf?_nil] at named
  cases named

/-- A scan finds nothing exactly when every line is quiet. -/
theorem scanFile_eq_nil_iff {path : String} :
    audit.scanFile corpus path disk = .ok [] ↔
      ∃ text, TextFile.read path disk = .ok text ∧
        ∀ line ∈ Text.lines text.toList, audit.Quiet corpus line := by
  rw [scanFile_eq_ok_iff]
  refine exists_congr fun text => ?_
  constructor
  · rintro ⟨names, readEq, extracted, nothing⟩
    obtain ⟨finished, rfl⟩ := Resource.identifiers_eq_ok_iff.mp extracted
    refine ⟨readEq, fun line mem => ⟨finished line mem, fun i named => ?_⟩⟩
    by_contra neither
    rw [not_or] at neither
    have nameMem : i ∈ (Text.lines text.toList).filterMap Resource.nameOf? :=
      List.mem_filterMap.mpr ⟨line, mem, Resource.nameOf?_eq_some_iff.mpr named⟩
    have dead := mem_dead_iff.mpr ⟨nameMem, neither⟩
    rw [← nothing] at dead
    exact absurd dead List.not_mem_nil
  · rintro ⟨readEq, quiet⟩
    refine ⟨_, readEq, Resource.identifiers_eq_ok_iff.mpr ⟨fun line mem => (quiet line mem).1, rfl⟩, ?_⟩
    rw [eq_comm, List.eq_nil_iff_forall_not_mem]
    intro i mem
    obtain ⟨nameMem, unallowed, dead⟩ := mem_dead_iff.mp mem
    obtain ⟨line, lineMem, named⟩ := List.mem_filterMap.mp nameMem
    exact ((quiet line lineMem).2 i (Resource.nameOf?_eq_some_iff.mp named)).elim unallowed dead

/-- A line is quiet that stays when all that was found in its text is removed. -/
theorem quiet_of_keeps {old : String} {names : List String}
    (extracted : Resource.identifiers old = .ok names) {line : List Char}
    (mem : line ∈ Text.lines old.toList)
    (kept : Resource.keeps (audit.dead corpus names) line = true) : audit.Quiet corpus line := by
  obtain ⟨finished, rfl⟩ := Resource.identifiers_eq_ok_iff.mp extracted
  refine ⟨finished line mem, fun i named => ?_⟩
  by_contra neither
  rw [not_or] at neither
  have nameMem : i ∈ (Text.lines old.toList).filterMap Resource.nameOf? :=
    List.mem_filterMap.mpr ⟨line, mem, Resource.nameOf?_eq_some_iff.mpr named⟩
  exact Resource.keeps_eq_true_iff.mp kept i named (mem_dead_iff.mpr ⟨nameMem, neither⟩)

/-! ## The texts of findings -/

/-- The identifiers of a finding are those that are dead among the names in its text. -/
theorem Finds.exists_names (finds : audit.Finds roots storyboards disk corpus paths found)
    {entry : String × List String} (mem : entry ∈ found.entries) {place : Place} {old : String}
    (shows : disk.Shows entry.1 place old) :
    ∃ names, Resource.identifiers old = .ok names ∧ entry.2 = audit.dead corpus names := by
  obtain ⟨_, scanned, _⟩ := (finds.mem_entries entry.1 entry.2).mp mem
  obtain ⟨text, names, readEq, extracted, idsEq⟩ := scanFile_eq_ok_iff.mp scanned
  obtain rfl : old = text := Except.ok.inj (shows.read_eq.symm.trans readEq)
  exact ⟨names, extracted, idsEq⟩

/-- The text of a finding is in no source file. -/
theorem Finds.not_isInfix (finds : audit.Finds roots storyboards disk corpus paths found)
    {entry : String × List String} (mem : entry ∈ found.entries) {place : Place} {old : String}
    (shows : disk.Shows entry.1 place old) : ¬ old.toList <:+: corpus.toList := by
  intro part
  obtain ⟨_, _, nonempty⟩ := (finds.mem_entries entry.1 entry.2).mp mem
  obtain ⟨i, _, idsEq⟩ := List.exists_cons_of_ne_nil nonempty
  have idMem : i ∈ entry.2 := idsEq ▸ List.mem_cons_self
  obtain ⟨names, extracted, deadEq⟩ := finds.exists_names mem shows
  obtain ⟨_, rfl⟩ := Resource.identifiers_eq_ok_iff.mp extracted
  obtain ⟨line, lineMem, named⟩ := List.mem_filterMap.mp (mem_dead_iff.mp (deadEq ▸ idMem)).1
  have quoted := (Resource.nameOf?_eq_some_iff.mp named).quoted_isInfix.trans
    (Text.isInfix_of_mem_lines lineMem)
  exact not_refers_of_mem_entries finds mem idMem part (Reference.refers_of_quoted quoted)

theorem Finds.coherent (finds : audit.Finds roots storyboards disk corpus paths found)
    {charset : String} {left : String → List String → String → Prop}
    (remains : ∀ entry ∈ found.entries, ∀ place old, disk.Shows entry.1 place old →
      Remains charset left old entry.2) :
    Coherent charset left disk found.entries where
  shown := by
    intro entry mem
    obtain ⟨text, readEq⟩ := finds.readable mem
    obtain ⟨place, shows⟩ := Disk.Shows.of_read readEq
    exact ⟨place, text, shows⟩
  same := by
    intro a aMem b bMem place old aShows bShows
    obtain ⟨_, aExtracted, aEq⟩ := finds.exists_names aMem aShows
    obtain ⟨_, bExtracted, bEq⟩ := finds.exists_names bMem bShows
    obtain rfl := Except.ok.inj (aExtracted.symm.trans bExtracted)
    rw [aEq, bEq]
  remains := remains

/-! ## The same sources and resources -/

/-- Texts that are still there are joined to the same text. -/
theorem joinedTexts_again {sources : List String}
    (kept : ∀ path ∈ sources, ∀ text, TextFile.read path first = .ok text →
      TextFile.read path disk = .ok text)
    {joined : String} (joinedEq : joinedTexts first sources = .ok joined) :
    joinedTexts disk sources = .ok joined := by
  induction sources generalizing joined with
  | nil => exact joinedEq
  | cons path rest ih =>
      obtain ⟨text, others, readEq, othersEq, rfl⟩ := joinedTexts_cons_eq_ok_iff.mp joinedEq
      have restKept := fun other mem => kept other (List.mem_cons_of_mem path mem)
      exact joinedTexts_cons_eq_ok_iff.mpr
        ⟨text, others, kept path List.mem_cons_self text readEq, ih restKept othersEq, rfl⟩

section Traced

variable {left : String → List String → String → Prop} {spots : List Place} {done : List String}

/-- The corpus is the same after cleaning. -/
theorem corpus_again (finds : audit.Finds roots storyboards first corpus paths found)
    (traced : Traced left first found.entries spots done disk) (wellFormed : first.WellFormed) :
    audit.corpus roots storyboards disk = .ok corpus := by
  obtain ⟨sources, sourcesEq, joinedEq⟩ := Except.bind_eq_ok_iff.mp finds.corpus_eq
  refine Except.bind_eq_ok_iff.mpr ⟨sources, ?_, joinedTexts_again ?_ joinedEq⟩
  · exact Collection.collect_again traced.refiles wellFormed.ascending wellFormed.named traced.ascending
      sourcesEq
  · intro path mem text readEq
    obtain ⟨place, shows⟩ := Disk.Shows.of_read readEq
    rcases traced.shows_after shows with ⟨_, kept⟩ | ⟨_, _, _, _, entry, entryMem, entryShows, _⟩
    · exact kept.read_eq
    · obtain ⟨source, sourceEq, part⟩ := isInfix_of_joinedTexts joinedEq mem
      obtain rfl := Except.ok.inj (sourceEq.symm.trans readEq)
      exact absurd part (finds.not_isInfix entryMem entryShows)

theorem resources_again (finds : audit.Finds roots storyboards first corpus paths found)
    (traced : Traced left first found.entries spots done disk) (wellFormed : first.WellFormed) :
    audit.resources roots disk = .ok paths :=
  Collection.collect_again traced.refiles wellFormed.ascending wellFormed.named traced.ascending
    finds.paths_eq

/-- In a file without findings nothing is found after cleaning either. -/
theorem scanFile_again (finds : audit.Finds roots storyboards first corpus paths found)
    (traced : Traced left first found.entries spots done disk) {path : String} (mem : path ∈ paths)
    (nothing : ∀ ids, (path, ids) ∉ found.entries) : audit.scanFile corpus path disk = .ok [] := by
  obtain ⟨ids, scanned⟩ := finds.scanned path mem
  obtain rfl : ids = [] := by
    by_contra nonempty
    exact nothing ids ((finds.mem_entries path ids).mpr ⟨mem, scanned, nonempty⟩)
  obtain ⟨text, names, readEq, extracted, deadEq⟩ := scanFile_eq_ok_iff.mp scanned
  obtain ⟨place, shows⟩ := Disk.Shows.of_read readEq
  rcases traced.shows_after shows with ⟨_, kept⟩ | ⟨_, _, _, _, entry, entryMem, entryShows, _⟩
  · exact scanFile_eq_ok_iff.mpr ⟨text, names, kept.read_eq, extracted, deadEq⟩
  · obtain ⟨_, again, entryDead⟩ := finds.exists_names entryMem entryShows
    obtain rfl := Except.ok.inj (extracted.symm.trans again)
    obtain ⟨_, _, nonempty⟩ := (finds.mem_entries entry.1 entry.2).mp entryMem
    exact absurd (entryDead.trans deadEq.symm) nonempty

end Traced

/-! ## The same lines -/

/-- What is left of a text, but for its first `n` lines: old lines, without those that name what was
removed; or nothing. -/
def Leaves (n : Nat) (old : String) (unwanted : List String) (text : String) : Prop :=
  ∀ line ∈ (Text.lines text.toList).drop n,
    (line ∈ Text.lines old.toList ∨ line = []) ∧ Resource.keeps unwanted line = true

theorem leaves_removing (n : Nat) {old text : String} {unwanted : List String}
    (start : text = old ∨ Leaves n old unwanted text) :
    Leaves n old unwanted (Resource.removing unwanted text) := by
  intro line mem
  rcases start with rfl | leaves
  · exact Resource.mem_lines_removing (List.mem_of_mem_drop mem)
  · have kept := (Resource.mem_lines_removing (List.mem_of_mem_drop mem)).2
    refine ⟨?_, kept⟩
    rw [Resource.lines_removing] at mem
    split at mem
    · exact Or.inr (List.mem_singleton.mp (List.mem_of_mem_drop mem))
    · have older : line ∈ (Text.lines text.toList).drop n :=
        (List.filter_sublist.drop n).subset mem
      exact (leaves line older).1

/-- A character set in which texts are read back with the same lines, but for the first ones, leaves
them. -/
theorem remains_of_returns {charset : String} {n : Nat} (returns : TextFile.Returns charset n)
    (old : String) (unwanted : List String) : Remains charset (Leaves n) old unwanted := by
  intro text start bytes encoded
  obtain ⟨_, again, encodedAgain, decoded, same⟩ := returns (Resource.removing unwanted text)
  obtain rfl := Except.ok.inj (encoded.symm.trans encodedAgain)
  refine ⟨String.ofList again, by rw [decoded, String.toList_ofList], ?_⟩
  intro line mem
  rw [String.toList_ofList, same] at mem
  exact leaves_removing n start line mem

/-- A text that does not start with a mark when it is cleaned is read back from UTF-8 as it is. -/
theorem remains_of_unmarked {charset old : String} {unwanted : List String}
    (means : Charset.meaning charset = .charset (.utf8 false))
    (unmarked : (Resource.removing unwanted old).toList.head? ≠ some TextFile.mark) :
    Remains charset (fun old unwanted text => text = Resource.removing unwanted old) old unwanted := by
  intro text start bytes encoded
  have cleaned : Resource.removing unwanted text = Resource.removing unwanted old := by
    rcases start with rfl | rfl
    · rfl
    · exact Resource.removing_idem unwanted old
  rw [cleaned, TextFile.encodeNamed_eq means, Charset.encode, Except.ok.injEq] at encoded
  subst bytes
  refine ⟨Resource.removing unwanted old, ?_, rfl⟩
  rw [TextFile.decode_utf8, TextFile.unmarked_eq_self unmarked]

/-- What is left of the text of a finding is quiet. -/
theorem Finds.quiet_of_leaves (finds : audit.Finds roots storyboards first corpus paths found)
    {entry : String × List String} (mem : entry ∈ found.entries) {place : Place} {old text : String}
    (shows : first.Shows entry.1 place old) {n : Nat} (leaves : Leaves n old entry.2 text)
    {line : List Char} (lineMem : line ∈ (Text.lines text.toList).drop n) : audit.Quiet corpus line := by
  obtain ⟨names, extracted, deadEq⟩ := finds.exists_names mem shows
  obtain ⟨older | rfl, kept⟩ := leaves line lineMem
  · exact quiet_of_keeps extracted older (deadEq ▸ kept)
  · exact quiet_nil

/-! ## Detecting again -/

/-- On a well-formed disk a detection succeeds, cleaning writes every file of its findings, and the
line on a file without findings can be written for each of them. -/
structure Cleared (audit : Audit) (cleanup : Cleanup) (roots : List String) (storyboards : Bool)
    (before : RunState) (found : Findings) (after : RunState) : Prop where
  wellFormed : before.disk.WellFormed
  cleaned : ∃ searched result,
    (audit.detect roots storyboards).perform before = (.ok found, searched) ∧
    (cleanup.apply found).perform searched = (.ok result, after) ∧
    ∀ entry ∈ found.entries, entry.1 ∈ result.written
  noted : ∀ entry ∈ found.entries, audit.CanNote entry.1

/-- An audit without notes has nothing to write on a file. -/
theorem canNote_of_silent (silent : audit.notes = none) (path : String) : audit.CanNote path := by
  intro w writer
  rw [silent] at writer
  cases writer

theorem cleared_of_silent {cleanup : Cleanup} {before searched : RunState} {result : Cleanup.Result}
    (silent : audit.notes = none) (ascending : before.disk.root.Ascending)
    (named : before.disk.root.Named)
    (detected : (audit.detect roots storyboards).perform before = (.ok found, searched))
    (applied : ((cleanup.apply found).perform searched).1 = .ok result)
    (written : ∀ entry ∈ found.entries, entry.1 ∈ result.written) :
    Cleared audit cleanup roots storyboards before found ((cleanup.apply found).perform searched).2 where
  wellFormed := ⟨ascending, named⟩
  cleaned := ⟨searched, result, detected, Prod.ext applied rfl, written⟩
  noted := fun entry _ => canNote_of_silent silent entry.1

/-- Whatever remains of the texts of findings, if its lines but for the first `n` are left lines,
then the corpus is the same after cleaning, and another detection finds nothing exactly when these
first lines are quiet. -/
theorem Cleared.detect_again {cleanup : Cleanup} {before after : RunState}
    (cleared : Cleared audit cleanup roots storyboards before found after)
    {left : String → List String → String → Prop} {n : Nat}
    (remains : ∀ entry ∈ found.entries, ∀ old, TextFile.read entry.1 before.disk = .ok old →
      Remains cleanup.charset left old entry.2)
    (leaves : ∀ {old unwanted text}, left old unwanted text → Leaves n old unwanted text) :
    ∃ corpus, audit.corpus roots storyboards before.disk = .ok corpus ∧
      audit.corpus roots storyboards after.disk = .ok corpus ∧
      (∀ entry ∈ found.entries, ∃ old text, TextFile.read entry.1 before.disk = .ok old ∧
        TextFile.read entry.1 after.disk = .ok text ∧ Leaves n old entry.2 text) ∧
      ((∃ last, (audit.detect roots storyboards).perform after = (.ok {}, last)) ↔
        ∀ entry ∈ found.entries, ∀ text, TextFile.read entry.1 after.disk = .ok text →
          ∀ line ∈ (Text.lines text.toList).take n, audit.Quiet corpus line) := by
  obtain ⟨searched, result, detected, applied, written⟩ := cleared.cleaned
  have looks : (audit.detect roots storyboards).LooksOnly := looksOnly_detect roots storyboards
  obtain ⟨sameDisk, _⟩ := looks.frame detected
  obtain ⟨corpus, paths, finds⟩ := finds_of_perform_detect detected
  have coherent : Coherent cleanup.charset left before.disk found.entries :=
    finds.coherent fun entry mem _ old shows => remains entry mem old shows.read_eq
  obtain ⟨spots, traced⟩ :=
    traced_of_apply (sameDisk ▸ coherent) (sameDisk ▸ cleared.wellFormed.ascending) applied
  rw [sameDisk] at traced
  have corpusEq := corpus_again finds traced cleared.wellFormed
  have pathsEq := resources_again finds traced cleared.wellFormed
  have cleaned : ∀ entry ∈ found.entries, ∃ place old spot text, before.disk.Shows entry.1 place old ∧
      after.disk.Shows entry.1 spot text ∧ Leaves n old entry.2 text := by
    intro entry mem
    obtain ⟨place, old, shows⟩ := coherent.shown entry mem
    obtain ⟨spot, text, kept, remaining⟩ := traced.left_of_done coherent mem (written entry mem) shows
    exact ⟨place, old, spot, text, shows, kept, leaves remaining⟩
  refine ⟨corpus, finds.corpus_eq, corpusEq, ?_, ?_⟩
  · intro entry mem
    obtain ⟨_, old, _, text, shows, kept, remaining⟩ := cleaned entry mem
    exact ⟨old, text, shows.read_eq, kept.read_eq, remaining⟩
  · rw [looks.exists_perform_eq_ok_iff,
      seen_detect_eq_empty_iff (looks.exists_perform_eq_ok_iff.mp ⟨searched, detected⟩) finds
        cleared.noted corpusEq pathsEq]
    constructor
    · intro clean entry mem text readEq line lineMem
      obtain ⟨pathMem, _, _⟩ := (finds.mem_entries entry.1 entry.2).mp mem
      obtain ⟨again, againEq, quiet⟩ := scanFile_eq_nil_iff.mp (clean entry.1 pathMem)
      obtain rfl := Except.ok.inj (readEq.symm.trans againEq)
      exact quiet line (List.mem_of_mem_take lineMem)
    · intro quiet path pathMem
      by_cases listed : ∃ ids, (path, ids) ∈ found.entries
      · obtain ⟨ids, mem⟩ := listed
        obtain ⟨_, old, _, text, shows, kept, remaining⟩ := cleaned (path, ids) mem
        refine scanFile_eq_nil_iff.mpr ⟨text, kept.read_eq, fun line lineMem => ?_⟩
        rw [← List.take_append_drop n (Text.lines text.toList), List.mem_append] at lineMem
        rcases lineMem with front | back
        · exact quiet (path, ids) mem text kept.read_eq line front
        · exact finds.quiet_of_leaves mem shows remaining back
      · exact scanFile_again finds traced pathMem (not_exists.mp listed)

/-- After cleaning in a character set that puts a mark in front of every text, the corpus is the
same and another detection succeeds and finds nothing. -/
theorem detect_again_of_marks {cleanup : Cleanup} {before after : RunState} {c : Charset}
    (cleared : Cleared audit cleanup roots storyboards before found after)
    (means : Charset.meaning cleanup.charset = .charset c) (marks : TextFile.Marks c) :
    ∃ corpus, audit.corpus roots storyboards before.disk = .ok corpus ∧
      audit.corpus roots storyboards after.disk = .ok corpus ∧
      ∃ last, (audit.detect roots storyboards).perform after = (.ok {}, last) := by
  have returns := TextFile.returns_of_marks means marks
  obtain ⟨corpus, beforeEq, afterEq, _, again⟩ :=
    cleared.detect_again (fun entry _ old _ => remains_of_returns returns old entry.2) id
  refine ⟨corpus, beforeEq, afterEq, again.mpr ?_⟩
  intro entry _ text _ line mem
  exact absurd mem List.not_mem_nil

/-- A resource file, and a link to it that counts as another one. -/
def linkedDisk : Disk where
  root := .folder "app"
    (.link "copy.strings" "ui.strings"
      (.file "main.m" ⟨Charset.Utf8.encode "use(@\"kept\");".toList, 0o644⟩
        (.file "ui.strings"
          ⟨Charset.Utf8.encode "\"gone\" = \"b\";\n\"kept\" = \"a\";".toList, 0o644⟩ .empty)))
    .empty
  here := []

/-- What is found on `linkedDisk`: one file under two paths. -/
def linkedFound : Findings :=
  ⟨[("app/copy.strings", ["gone"]), ("app/ui.strings", ["gone"])]⟩

/-- The paths of `linkedFound` are in order. -/
theorem apply_linkedFound (cleanup : Cleanup) :
    cleanup.apply linkedFound = linkedFound.entries.foldlM cleanup.cleanOne {} := by
  have sorted : linkedFound.byPath = linkedFound.entries :=
    List.mergeSort_of_pairwise (by decide +kernel)
  rw [Cleanup.apply, sorted]

theorem cleared_linkedDisk {cleanup : Cleanup}
    (applied : ((cleanup.apply linkedFound).perform { disk := linkedDisk }).1 =
      .ok ⟨["app/copy.strings", "app/ui.strings"], []⟩) :
    Cleared {} cleanup ["app"] false { disk := linkedDisk } linkedFound
      ((cleanup.apply linkedFound).perform { disk := linkedDisk }).2 := by
  have detected : (({} : Audit).detect ["app"] false).perform { disk := linkedDisk } =
      (.ok linkedFound, { disk := linkedDisk }) := by
    decide +kernel
  exact cleared_of_silent rfl (by decide +kernel) (by decide +kernel) detected applied
    (by decide +kernel)

/-- On `linkedDisk` the file is cleaned in UTF-16 under both paths, and nothing is left to find. -/
theorem detect_again_of_marks_linkedDisk :
    ∃ after, Cleared {} { charset := "utf-16" } ["app"] false { disk := linkedDisk } linkedFound after ∧
      ∃ last, (({} : Audit).detect ["app"] false).perform after = (.ok {}, last) := by
  have applied : ((({ charset := "utf-16" } : Cleanup).apply linkedFound).perform
      { disk := linkedDisk }).1 = .ok ⟨["app/copy.strings", "app/ui.strings"], []⟩ := by
    rw [apply_linkedFound]
    decide +kernel
  have cleared := cleared_linkedDisk applied
  have means : Charset.meaning "utf-16" = .charset (.utf16 none) := by decide +kernel
  obtain ⟨_, _, _, again⟩ := detect_again_of_marks cleared means (Or.inl rfl)
  exact ⟨_, cleared, again⟩

/-- After cleaning in UTF-8 the corpus is the same, every line but the first one of a cleaned file
is a line that was left, and another detection succeeds and finds nothing exactly when the first
lines are quiet.  They are if no cleaned text starts with a mark. -/
theorem detect_again_of_utf8 {cleanup : Cleanup} {before after : RunState}
    (cleared : Cleared audit cleanup roots storyboards before found after)
    (means : Charset.meaning cleanup.charset = .charset (.utf8 false)) :
    ∃ corpus, audit.corpus roots storyboards before.disk = .ok corpus ∧
      audit.corpus roots storyboards after.disk = .ok corpus ∧
      (∀ entry ∈ found.entries, ∃ old text, TextFile.read entry.1 before.disk = .ok old ∧
        TextFile.read entry.1 after.disk = .ok text ∧ Leaves 1 old entry.2 text) ∧
      ((∃ last, (audit.detect roots storyboards).perform after = (.ok {}, last)) ↔
        ∀ entry ∈ found.entries, ∀ text, TextFile.read entry.1 after.disk = .ok text →
          ∀ line ∈ (Text.lines text.toList).take 1, audit.Quiet corpus line) ∧
      ((∀ entry ∈ found.entries, ∀ old, TextFile.read entry.1 before.disk = .ok old →
          (Resource.removing entry.2 old).toList.head? ≠ some TextFile.mark) →
        ∃ last, (audit.detect roots storyboards).perform after = (.ok {}, last)) := by
  have returns := TextFile.returns_of_utf8 means
  obtain ⟨corpus, beforeEq, afterEq, lines, again⟩ :=
    cleared.detect_again (fun entry _ old _ => remains_of_returns returns old entry.2) id
  refine ⟨corpus, beforeEq, afterEq, lines, again, fun unmarked => ?_⟩
  obtain ⟨_, _, _, _, exactly⟩ := cleared.detect_again (n := 0)
    (fun entry mem old readEq => remains_of_unmarked means (unmarked entry mem old readEq))
    (fun same => same ▸ leaves_removing 0 (Or.inl rfl))
  refine exactly.mpr ?_
  intro entry _ text _ line mem
  exact absurd mem List.not_mem_nil

/-- The file of `linkedDisk` is cleaned in UTF-8 under both paths, starts with no mark, and nothing
is left to find. -/
theorem detect_again_of_utf8_linkedDisk :
    ∃ after, Cleared {} {} ["app"] false { disk := linkedDisk } linkedFound after ∧
      ∃ last, (({} : Audit).detect ["app"] false).perform after = (.ok {}, last) := by
  have applied : ((({} : Cleanup).apply linkedFound).perform { disk := linkedDisk }).1 =
      .ok ⟨["app/copy.strings", "app/ui.strings"], []⟩ := by
    rw [apply_linkedFound]
    decide +kernel
  have cleared := cleared_linkedDisk applied
  have texts : ∀ entry ∈ linkedFound.entries, TextFile.read entry.1 linkedDisk =
      .ok "\"gone\" = \"b\";\n\"kept\" = \"a\";" := by
    decide +kernel
  have plain : ∀ entry ∈ linkedFound.entries,
      (Resource.removing entry.2 "\"gone\" = \"b\";\n\"kept\" = \"a\";").toList.head? ≠
        some TextFile.mark := by
    decide +kernel
  have means : Charset.meaning "utf-8" = .charset (.utf8 false) := by decide +kernel
  obtain ⟨_, _, _, _, _, again⟩ := detect_again_of_utf8 cleared means
  refine ⟨_, cleared, again ?_⟩
  intro entry mem old readEq
  rw [← Except.ok.inj ((texts entry mem).symm.trans readEq)]
  exact plain entry mem

/-- A resource file with a mark inside, in front of its second line. -/
def markedDisk : Disk where
  root := .folder "app"
    (.file "ui.strings"
      ⟨Charset.Utf8.encode "\"gone\" = \"1\";\n\uFEFF\"also\" = \"2\";".toList, 0o644⟩ .empty)
    .empty
  here := []

/-- Once the first line of `markedDisk` is removed, the second one starts the file and loses its
mark, so that another detection finds its identifier. -/
theorem detect_again_ne_empty_markedDisk :
    ∃ after, Cleared {} {} ["app"] false { disk := markedDisk } ⟨[("app/ui.strings", ["gone"])]⟩ after ∧
      (({} : Audit).detect ["app"] false).perform after =
        (.ok ⟨[("app/ui.strings", ["also"])]⟩, after) := by
  have detected : (({} : Audit).detect ["app"] false).perform { disk := markedDisk } =
      (.ok ⟨[("app/ui.strings", ["gone"])]⟩, { disk := markedDisk }) := by
    decide +kernel
  have applied : ((({} : Cleanup).apply ⟨[("app/ui.strings", ["gone"])]⟩).perform
      { disk := markedDisk }).1 = .ok ⟨["app/ui.strings"], []⟩ := by
    decide +kernel
  have cleared := cleared_of_silent rfl (by decide +kernel) (by decide +kernel) detected applied
    (by decide +kernel)
  exact ⟨_, cleared, by decide +kernel⟩

end Audit

end StringAudit
