import StringAudit.Proofs.Collection.Traversal
import StringAudit.Proofs.Detection.Exact
import StringAudit.Proofs.Detection.RootOrder

/-!
# Searching storyboards too

With storyboards the source files are those without them, with more files in between.  An identifier to
which one of the files refers is alive in both cases.  But where a storyboard comes between two files, it
may part the end of one from the beginning of the next, and with them a quoted form that no file holds
alone.  Such an identifier is condemned by the wider search only; every other one that it condemns was
condemned without storyboards, in the same file and the same order.
-/

namespace StringAudit

namespace Collection

/-! ## Wider searches -/

/-- A search finds whatever another one finds: it enters the same directories and looks for the same
names, and perhaps for more. -/
structure Search.Covers (wide narrow : Search) : Prop where
  ignored_eq : wide.ignored = narrow.ignored
  matches_of : ∀ name, narrow.matches name = true → wide.matches name = true

theorem covers_of_subset {extensions more : List String} (subset : extensions ⊆ more)
    (ignored : List String) : (Search.of more ignored).Covers (.of extensions ignored) where
  ignored_eq := rfl
  matches_of := by
    intro name looked
    simp only [Search.matches, Search.of, Bool.and_eq_true, List.contains_iff_mem, List.mem_map]
      at looked ⊢
    obtain ⟨extended, extension, mem, plain⟩ := looked
    exact ⟨extended, extension, subset mem, plain⟩

variable {disk : Disk} {wide narrow : Search}

theorem sublist_of_listed {path : String} {few many : Found} {files files' : List String}
    (here : few.files.Sublist many.files)
    (below : ∀ deep deep', few.below = .ok deep → many.below = .ok deep' → deep.Sublist deep')
    (listedEq : listed disk path few = .ok files) (listedEq' : listed disk path many = .ok files') :
    files.Sublist files' := by
  obtain ⟨deep, deepEq, rfl⟩ := exists_below_of_listed listedEq
  obtain ⟨deep', deepEq', rfl⟩ := exists_below_of_listed listedEq'
  exact here.append (below deep deep' deepEq deepEq')

/-- In each directory a wider search finds the same files in the same order, with others in between. -/
theorem sublist_of_gather (covers : wide.Covers narrow) (path : String) (d : Directory) :
    (gather disk narrow path d).files.Sublist (gather disk wide path d).files ∧
      ∀ deep deep', (gather disk narrow path d).below = .ok deep →
        (gather disk wide path d).below = .ok deep' → deep.Sublist deep' := by
  induction d generalizing path with
  | empty =>
      refine ⟨.slnil, ?_⟩
      rintro _ _ ⟨⟩ ⟨⟩
      exact .slnil
  | file name contents rest ih =>
      obtain ⟨here, below⟩ := ih path
      rw [gather, gather]
      by_cases looked : narrow.matches name = true
      · rw [if_pos looked, if_pos (covers.matches_of name looked)]
        exact ⟨here.cons_cons _, below⟩
      · rw [if_neg looked]
        split
        · exact ⟨here.cons _, below⟩
        · exact ⟨here, below⟩
  | link name target rest ih =>
      obtain ⟨here, below⟩ := ih path
      rw [gather, gather]
      by_cases looked : (narrow.matches name && !disk.isDirectory (Path.join path name)) = true
      · have lookedWide : (wide.matches name && !disk.isDirectory (Path.join path name)) = true := by
          rw [Bool.and_eq_true] at looked ⊢
          exact ⟨covers.matches_of name looked.1, looked.2⟩
        rw [if_pos looked, if_pos lookedWide]
        exact ⟨here.cons_cons _, below⟩
      · rw [if_neg looked]
        split
        · exact ⟨here.cons _, below⟩
        · exact ⟨here, below⟩
  | folder name inner rest ihInner ih =>
      obtain ⟨here, below⟩ := ih path
      obtain ⟨innerHere, innerBelow⟩ := ihInner (Path.join path name)
      rw [gather, gather, covers.ignored_eq]
      split
      · exact ⟨here, below⟩
      refine ⟨here, fun deep deep' deepEq deepEq' => ?_⟩
      obtain ⟨entered, enteredEq, deepEq⟩ := Except.bind_eq_ok_iff.mp deepEq
      obtain ⟨others, othersEq, deepEq⟩ := Except.bind_eq_ok_iff.mp deepEq
      obtain ⟨entered', enteredEq', deepEq'⟩ := Except.bind_eq_ok_iff.mp deepEq'
      obtain ⟨others', othersEq', deepEq'⟩ := Except.bind_eq_ok_iff.mp deepEq'
      cases deepEq
      cases deepEq'
      exact (sublist_of_listed innerHere innerBelow enteredEq enteredEq').append
        (below others others' othersEq othersEq')

theorem sublist_of_collectRoot (covers : wide.Covers narrow) {root : String} {files files' : List String}
    (collected : collectRoot disk narrow root = .ok files)
    (collected' : collectRoot disk wide root = .ok files') : files.Sublist files' := by
  obtain ⟨place, inner, _, resolved, inside, listedEq⟩ := collectRoot_eq_ok collected
  obtain ⟨place', inner', _, resolved', inside', listedEq'⟩ := collectRoot_eq_ok collected'
  obtain rfl : place = place' := Except.ok.inj (resolved.symm.trans resolved')
  obtain rfl : inner = inner' := by
    simpa using inside.symm.trans inside'
  obtain ⟨here, below⟩ := sublist_of_gather covers root inner
  exact sublist_of_listed here below listedEq listedEq'

/-- A wider search finds the same files in the same order, with others in between. -/
theorem sublist_of_collect (covers : wide.Covers narrow) {roots files files' : List String}
    (collected : collect disk narrow roots = .ok files)
    (collected' : collect disk wide roots = .ok files') : files.Sublist files' := by
  induction roots generalizing files files' with
  | nil =>
      cases collected
      exact List.nil_sublist _
  | cons root rest ih =>
      obtain ⟨first, others, firstEq, othersEq, rfl⟩ := collect_cons_eq_ok_iff.mp collected
      obtain ⟨first', others', firstEq', othersEq', rfl⟩ := collect_cons_eq_ok_iff.mp collected'
      exact (sublist_of_collectRoot covers firstEq firstEq').append (ih othersEq othersEq')

end Collection

namespace Reference

/-- A corpus that keeps the references of another one condemns, of what the other condemns, that to which
it does not refer. -/
theorem abandoned_eq_filter {corpus corpus' : String} {identifiers : List String}
    (kept : ∀ i ∈ identifiers, Refers corpus.toList i → Refers corpus'.toList i) :
    abandoned corpus' identifiers =
      (abandoned corpus identifiers).filter fun i => ¬ Refers corpus'.toList i := by
  rw [abandoned_eq, abandoned_eq, ← eraseDups_filter, List.filter_filter]
  congr 1
  refine List.filter_congr fun i mem => ?_
  have dead := mt (kept i mem)
  by_cases refers : Refers corpus'.toList i
  · simp [refers]
  · simp [refers, dead refers]

end Reference

/-- Findings condemn no more than others do: for each of their files there are others, which list the
same identifiers in the same order, and perhaps more in between. -/
def Findings.Within (fewer more : Findings) : Prop :=
  ∀ path ids, (path, ids) ∈ fewer.entries → ∃ ids', (path, ids') ∈ more.entries ∧ ids.Sublist ids'

namespace Audit

variable {audit : Audit} {roots : List String} {disk : Disk}

theorem sublist_of_sources {sources sources' : List String}
    (sourcesEq : audit.sources roots false disk = .ok sources)
    (sourcesEq' : audit.sources roots true disk = .ok sources') : sources.Sublist sources' :=
  Collection.sublist_of_collect (Collection.covers_of_subset (by decide) audit.ignored) sourcesEq sourcesEq'

/-- Where the corpus keeps the references of another one, a file has no more to condemn. -/
theorem sublist_of_scanFile {corpus corpus' path : String} {ids ids' : List String}
    (kept : ∀ i, audit.Asks disk path i →
      Reference.Refers corpus.toList i → Reference.Refers corpus'.toList i)
    (scanned : audit.scanFile corpus path disk = .ok ids)
    (scanned' : audit.scanFile corpus' path disk = .ok ids') : ids'.Sublist ids := by
  obtain ⟨text, names, readEq, namesEq, rfl⟩ := scanFile_eq_ok_iff.mp scanned
  obtain ⟨text', names', readEq', namesEq', rfl⟩ := scanFile_eq_ok_iff.mp scanned'
  obtain rfl : text = text' := Except.ok.inj (readEq.symm.trans readEq')
  obtain rfl : names = names' := Except.ok.inj (namesEq.symm.trans namesEq')
  rw [dead, dead, Reference.abandoned_eq_filter fun i mem => kept i ?_]
  · exact List.filter_sublist
  · rw [List.mem_filter, Bool.not_eq_true', ← Bool.not_eq_true, List.contains_iff_mem] at mem
    exact ⟨text, names, readEq, namesEq, mem⟩

/-- One detection condemns no more than another one of the same files exactly if its corpus keeps the
references of the other, as far as the files ask for them. -/
theorem Finds.within_iff {storyboards storyboards' : Bool} {corpus corpus' : String}
    {paths : List String} {found found' : Findings}
    (finds : audit.Finds roots storyboards disk corpus paths found)
    (finds' : audit.Finds roots storyboards' disk corpus' paths found') :
    found'.Within found ↔ ∀ path ∈ paths, ∀ i, audit.Asks disk path i →
      Reference.Refers corpus.toList i → Reference.Refers corpus'.toList i := by
  constructor
  · intro within path mem i asked alive
    by_contra dead
    obtain ⟨ids', entry', listed'⟩ := finds'.reports_iff.mpr ⟨mem, asked, dead⟩
    obtain ⟨ids, entry, sublist⟩ := within path ids' entry'
    exact (finds.reports_iff.mp ⟨ids, entry, sublist.subset listed'⟩).2.2 alive
  · intro kept path ids' entry'
    obtain ⟨mem, scanned', nonempty⟩ := (finds'.mem_entries path ids').mp entry'
    obtain ⟨ids, scanned⟩ := finds.scanned path mem
    have sublist := sublist_of_scanFile (kept path mem) scanned scanned'
    have something : ids ≠ [] := by
      rintro rfl
      exact nonempty (List.sublist_nil.mp sublist)
    exact ⟨ids, (finds.mem_entries path ids).mpr ⟨mem, scanned, something⟩, sublist⟩

/-- With storyboards the corpus is made of the same texts in the same order, with others in between.
Detection condemns no more than without them exactly if the wider corpus keeps the references of the
narrower one, among those to what the resource files ask for.  An identifier that is condemned only with
storyboards is referred to by the narrower corpus, but by none of the source files alone. -/
theorem detect_of_storyboards {before after after' : RunState} {found found' : Findings}
    (detected : (audit.detect roots false).perform before = (.ok found, after))
    (detected' : (audit.detect roots true).perform before = (.ok found', after')) :
    ∃ sources sources' corpus corpus' paths, sources.Sublist sources' ∧
      audit.sources roots false before.disk = .ok sources ∧
      audit.sources roots true before.disk = .ok sources' ∧
      joinedTexts before.disk sources = .ok corpus ∧ joinedTexts before.disk sources' = .ok corpus' ∧
      audit.resources roots before.disk = .ok paths ∧
      (found'.Within found ↔ ∀ path ∈ paths, ∀ i, audit.Asks before.disk path i →
        Reference.Refers corpus.toList i → Reference.Refers corpus'.toList i) ∧
      ∀ path i, found'.Reports path i → ¬ found.Reports path i →
        Reference.Refers corpus.toList i ∧ ∀ source ∈ sources', ∀ text : String,
          TextFile.read source before.disk = .ok text → ¬ Reference.Refers text.toList i := by
  obtain ⟨corpus, paths, finds⟩ := finds_of_perform_detect detected
  obtain ⟨corpus', paths', finds'⟩ := finds_of_perform_detect detected'
  obtain rfl : paths = paths' := Except.ok.inj (finds.paths_eq.symm.trans finds'.paths_eq)
  obtain ⟨sources, sourcesEq, joined⟩ := Except.bind_eq_ok_iff.mp finds.corpus_eq
  obtain ⟨sources', sourcesEq', joined'⟩ := Except.bind_eq_ok_iff.mp finds'.corpus_eq
  refine ⟨sources, sources', corpus, corpus', paths, sublist_of_sources sourcesEq sourcesEq', sourcesEq,
    sourcesEq', joined, joined', finds.paths_eq, finds.within_iff finds', ?_⟩
  intro path i reported unreported
  obtain ⟨mem, asked, dead⟩ := finds'.reports_iff.mp reported
  rw [finds.reports_iff] at unreported
  refine ⟨by simpa [mem, asked] using unreported, ?_⟩
  intro source sourceMem text readEq refers
  obtain ⟨text', readEq', part⟩ := isInfix_of_joinedTexts joined' sourceMem
  obtain rfl : text = text' := Except.ok.inj (readEq.symm.trans readEq')
  exact dead (refers.mono part)

/-- Two source files that make up a reference across their border, and a storyboard between them. -/
def partedDisk : Disk where
  root := .folder "app"
    (.file "a.m" ⟨Charset.Utf8.encode "use(\"go".toList, 0o644⟩
      (.file "b.storyboard" ⟨Charset.Utf8.encode "<scene/>".toList, 0o644⟩
        (.file "c.m" ⟨Charset.Utf8.encode "ne\");".toList, 0o644⟩
          (.file "ui.strings" ⟨Charset.Utf8.encode "\"gone\" = \"1\";".toList, 0o644⟩ .empty))))
    .empty
  here := []

theorem detect_parted_without :
    (({} : Audit).detect ["app"] false).perform { disk := partedDisk } =
      (.ok {}, { disk := partedDisk }) := by
  decide +kernel

theorem detect_parted_with :
    (({} : Audit).detect ["app"] true).perform { disk := partedDisk } =
      (.ok ⟨[("app/ui.strings", ["gone"])]⟩, { disk := partedDisk }) := by
  decide +kernel

/-- On `partedDisk` the two source files refer to the identifier across their border only, so that it is
condemned as soon as the storyboard comes between them. -/
theorem detect_of_storyboards_partedDisk :
    ∃ corpus corpus' : String, Reference.Refers corpus.toList "gone" ∧
      ¬ Reference.Refers corpus'.toList "gone" ∧
      joinedTexts partedDisk ["app/a.m", "app/c.m"] = .ok corpus ∧
      joinedTexts partedDisk ["app/a.m", "app/b.storyboard", "app/c.m"] = .ok corpus' ∧
      ∀ source ∈ ["app/a.m", "app/b.storyboard", "app/c.m"], ∀ text : String,
        TextFile.read source partedDisk = .ok text → ¬ Reference.Refers text.toList "gone" := by
  obtain ⟨sources, sources', corpus, corpus', paths, -, sourcesEq, sourcesEq', joined, joined', -, -,
    only⟩ := detect_of_storyboards detect_parted_without detect_parted_with
  have sourcesAre : ({} : Audit).sources ["app"] false partedDisk = .ok ["app/a.m", "app/c.m"] := by
    decide +kernel
  have sourcesAre' : ({} : Audit).sources ["app"] true partedDisk =
      .ok ["app/a.m", "app/b.storyboard", "app/c.m"] := by
    decide +kernel
  obtain rfl := Except.ok.inj (sourcesEq.symm.trans sourcesAre)
  obtain rfl := Except.ok.inj (sourcesEq'.symm.trans sourcesAre')
  have reported : (Findings.mk [("app/ui.strings", ["gone"])]).Reports "app/ui.strings" "gone" :=
    ⟨["gone"], List.mem_singleton_self _, List.mem_singleton_self _⟩
  have unreported : ¬ (Findings.mk []).Reports "app/ui.strings" "gone" := by
    rintro ⟨_, mem, _⟩
    exact absurd mem List.not_mem_nil
  obtain ⟨alive, alone⟩ := only _ _ reported unreported
  refine ⟨corpus, corpus', alive, ?_, joined, joined', alone⟩
  have corpusIs : joinedTexts partedDisk ["app/a.m", "app/b.storyboard", "app/c.m"] =
      .ok "use(\"go<scene/>ne\");" := by
    decide +kernel
  obtain rfl := Except.ok.inj (joined'.symm.trans corpusIs)
  decide +kernel

/-- On `partedDisk` an identifier is condemned with storyboards and not without. -/
theorem detect_not_within_partedDisk :
    ∃ found found' after after',
      (({} : Audit).detect ["app"] false).perform { disk := partedDisk } = (.ok found, after) ∧
      (({} : Audit).detect ["app"] true).perform { disk := partedDisk } = (.ok found', after') ∧
      ¬ found'.Within found := by
  refine ⟨_, _, _, _, detect_parted_without, detect_parted_with, fun within => ?_⟩
  obtain ⟨_, mem, _⟩ := within "app/ui.strings" ["gone"] (List.mem_singleton_self _)
  exact absurd mem List.not_mem_nil

end Audit

end StringAudit
