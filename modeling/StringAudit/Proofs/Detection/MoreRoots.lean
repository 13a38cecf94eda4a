import StringAudit.Proofs.Detection.Stops
import StringAudit.Proofs.Detection.Storyboards

/-!
# More roots

Roots that are appended to others are searched behind them.  So the files below the first roots come
first, and the corpus grows at its end alone: it refers to whatever it referred to before.  Of the files
below the first roots, none has more to condemn than it had without the others.
-/

namespace StringAudit

namespace Collection

/-- Files are collected below the first roots and then below the others. -/
theorem collect_append_eq_ok_iff {disk : Disk} {search : Search} {roots more files : List String} :
    collect disk search (roots ++ more) = .ok files ↔
      ∃ front back, collect disk search roots = .ok front ∧ collect disk search more = .ok back ∧
        files = front ++ back := by
  induction roots generalizing files with
  | nil =>
      constructor
      · intro collected
        exact ⟨[], files, rfl, collected, rfl⟩
      · rintro ⟨_, back, ⟨⟩, collected, rfl⟩
        exact collected
  | cons root rest ih =>
      rw [List.cons_append, collect_cons_eq_ok_iff]
      constructor
      · rintro ⟨first, _, firstEq, othersEq, rfl⟩
        obtain ⟨front, back, frontEq, backEq, rfl⟩ := ih.mp othersEq
        exact ⟨first ++ front, back, collect_cons_eq_ok_iff.mpr ⟨first, front, firstEq, frontEq, rfl⟩,
          backEq, (List.append_assoc first front back).symm⟩
      · rintro ⟨_, back, collected, backEq, rfl⟩
        obtain ⟨first, front, firstEq, frontEq, rfl⟩ := collect_cons_eq_ok_iff.mp collected
        exact ⟨first, front ++ back, firstEq, ih.mpr ⟨front, back, frontEq, backEq, rfl⟩,
          List.append_assoc first front back⟩

end Collection

namespace Audit

variable {audit : Audit} {roots more : List String} {storyboards : Bool} {disk : Disk}

/-- The texts of files are joined in their order. -/
theorem joinedTexts_append_eq_ok_iff {paths others : List String} {corpus : String} :
    joinedTexts disk (paths ++ others) = .ok corpus ↔
      ∃ front back, joinedTexts disk paths = .ok front ∧ joinedTexts disk others = .ok back ∧
        corpus = front ++ back := by
  induction paths generalizing corpus with
  | nil =>
      constructor
      · intro joined
        exact ⟨"", corpus, rfl, joined, (String.empty_append).symm⟩
      · rintro ⟨_, back, ⟨⟩, joined, rfl⟩
        rwa [String.empty_append]
  | cons path rest ih =>
      rw [List.cons_append, joinedTexts_cons_eq_ok_iff]
      constructor
      · rintro ⟨text, _, readEq, joined, rfl⟩
        obtain ⟨front, back, frontEq, backEq, rfl⟩ := ih.mp joined
        exact ⟨text ++ front, back, joinedTexts_cons_eq_ok_iff.mpr ⟨text, front, readEq, frontEq, rfl⟩,
          backEq, String.append_assoc.symm⟩
      · rintro ⟨_, back, joined, backEq, rfl⟩
        obtain ⟨text, front, readEq, frontEq, rfl⟩ := joinedTexts_cons_eq_ok_iff.mp joined
        exact ⟨text, front ++ back, readEq, ih.mpr ⟨front, back, frontEq, backEq, rfl⟩, String.append_assoc⟩

/-- With more roots the corpus goes on behind its end. -/
theorem exists_corpus_of_append {corpus : String}
    (corpusEq : audit.corpus (roots ++ more) storyboards disk = .ok corpus) :
    ∃ front back, audit.corpus roots storyboards disk = .ok front ∧ corpus = front ++ back := by
  obtain ⟨sources, sourcesEq, joined⟩ := Except.bind_eq_ok_iff.mp corpusEq
  obtain ⟨first, others, firstEq, -, rfl⟩ := Collection.collect_append_eq_ok_iff.mp sourcesEq
  obtain ⟨front, back, frontEq, -, rfl⟩ := joinedTexts_append_eq_ok_iff.mp joined
  exact ⟨front, back, Except.bind_eq_ok_iff.mpr ⟨first, firstEq, frontEq⟩, rfl⟩

/-- A file that can be scanned for one corpus can be scanned for any beginning of it, which condemns no
less. -/
theorem exists_scanFile_of_append {front back path : String} {ids : List String}
    (scanned : audit.scanFile (front ++ back) path disk = .ok ids) :
    ∃ ids', audit.scanFile front path disk = .ok ids' ∧ ids.Sublist ids' := by
  obtain ⟨ids', scanned'⟩ := exists_scanFile_iff.mpr (exists_scanFile_iff.mp ⟨ids, scanned⟩)
  refine ⟨ids', scanned', sublist_of_scanFile (fun i _ refers => ?_) scanned' scanned⟩
  rw [String.toList_append]
  exact refers.mono (List.prefix_append _ _).isInfix

/-- If all files can be scanned and noted for a corpus, the first of them can for any beginning of it. -/
theorem exists_scanAll_of_append {front back : String} {paths others : List String} {found : Findings}
    (scanning : (audit.scanAll (front ++ back) (paths ++ others)).seen disk = .ok found) :
    ∃ found', (audit.scanAll front paths).seen disk = .ok found' := by
  obtain ⟨possible, scanned, scannedEq, -, noted⟩ := seen_scanAll_eq_ok_iff.mp scanning
  obtain ⟨pathsEq, each⟩ := scanFiles_eq_ok_iff.mp scannedEq
  have scannable : ∀ path ∈ paths, Scannable disk path := by
    intro path mem
    exact exists_scanFiles_iff.mp ⟨scanned, scannedEq⟩ path (List.mem_append_left others mem)
  obtain ⟨scanned', scannedEq'⟩ := exists_scanFiles_iff.mpr scannable
  obtain ⟨rfl, each'⟩ := scanFiles_eq_ok_iff.mp scannedEq'
  refine ⟨_, seen_scanAll_eq_ok_iff.mpr
    ⟨fun some => possible (List.append_ne_nil_of_left_ne_nil some others), scanned', scannedEq', rfl, ?_⟩⟩
  intro item mem nothing
  obtain ⟨other, otherMem, sameFile⟩ : ∃ other ∈ scanned, other.1 = item.1 :=
    List.mem_map.mp (pathsEq ▸ List.mem_append_left others (List.mem_map_of_mem mem))
  -- What is clean for the beginning of the corpus is clean for all of it, and so it was noted.
  obtain ⟨ids, idsEq, sublist⟩ := exists_scanFile_of_append (each other otherMem)
  rw [sameFile, each' item mem, Except.ok.injEq] at idsEq
  subst ids
  rw [nothing, List.sublist_nil] at sublist
  exact sameFile ▸ noted other otherMem sublist

/-- Appending roots only rescues identifiers: detection below the first roots succeeds too, and of the
files below them each one that is reported was reported before, with the same identifiers in the same
order and perhaps more in between. -/
theorem detect_of_append {before after : RunState} {found : Findings}
    (detected : (audit.detect (roots ++ more) storyboards).perform before = (.ok found, after)) :
    ∃ paths found' after', audit.resources roots before.disk = .ok paths ∧
      (audit.detect roots storyboards).perform before = (.ok found', after') ∧
      ∀ path ∈ paths, ∀ ids, (path, ids) ∈ found.entries →
        ∃ ids', (path, ids') ∈ found'.entries ∧ ids.Sublist ids' := by
  have seen : (audit.detect (roots ++ more) storyboards).seen before.disk = .ok found :=
    (looksOnly_detect _ storyboards).exists_perform_eq_ok_iff.mp ⟨after, detected⟩
  obtain ⟨started, corpus, corpusEq, all, allEq, -, scanning⟩ := seen_detect_eq_ok_iff.mp seen
  obtain ⟨front, back, frontEq, rfl⟩ := exists_corpus_of_append corpusEq
  obtain ⟨paths, others, pathsEq, -, rfl⟩ := Collection.collect_append_eq_ok_iff.mp allEq
  obtain ⟨found', scanning'⟩ := exists_scanAll_of_append scanning
  have seen' : (audit.detect roots storyboards).seen before.disk = .ok found' :=
    seen_detect_eq_ok_iff.mpr ⟨started, front, frontEq, paths, pathsEq,
      Writer.canAnnounce_of_ascii started (ascii_scanLine _), scanning'⟩
  obtain ⟨after', detected'⟩ := (looksOnly_detect roots storyboards).exists_perform_eq_ok_iff.mpr seen'
  refine ⟨paths, found', after', pathsEq, detected', ?_⟩
  intro path mem ids entry
  obtain ⟨_, _, finds⟩ := finds_of_seen_detect seen
  obtain ⟨_, _, finds'⟩ := finds_of_seen_detect seen'
  obtain rfl := Except.ok.inj (corpusEq.symm.trans finds.corpus_eq)
  obtain rfl := Except.ok.inj (frontEq.symm.trans finds'.corpus_eq)
  obtain rfl := Except.ok.inj (pathsEq.symm.trans finds'.paths_eq)
  obtain ⟨-, scanned, nonempty⟩ := (finds.mem_entries path ids).mp entry
  obtain ⟨ids', scanned', sublist⟩ := exists_scanFile_of_append scanned
  have something : ids' ≠ [] := by
    rintro rfl
    exact nonempty (List.sublist_nil.mp sublist)
  exact ⟨ids', (finds'.mem_entries path ids').mpr ⟨mem, scanned', something⟩, sublist⟩

/-- A resource file with two identifiers below one root, and a source file that refers to one of them
below another one. -/
def rescueDisk : Disk where
  root := .folder "app"
    (.file "ui.strings"
      ⟨Charset.Utf8.encode "\"used\" = \"1\";\n\"gone\" = \"2\";".toList, 0o644⟩ .empty)
    (.folder "lib" (.file "main.m" ⟨Charset.Utf8.encode "use(@\"used\");".toList, 0o644⟩ .empty) .empty)
  here := []

/-- On `rescueDisk` the identifier that is reported below both roots, the first of them given twice, is
reported below the first one. -/
theorem detect_of_append_rescueDisk :
    (({} : Audit).detect (["app"] ++ ["lib", "app"]) false).perform { disk := rescueDisk } =
        (.ok ⟨[("app/ui.strings", ["gone"])]⟩, { disk := rescueDisk }) ∧
      ∃ found after, (({} : Audit).detect ["app"] false).perform { disk := rescueDisk } =
          (.ok found, after) ∧
        ∃ ids, ("app/ui.strings", ids) ∈ found.entries ∧ ["gone"].Sublist ids := by
  have detected : (({} : Audit).detect (["app"] ++ ["lib", "app"]) false).perform { disk := rescueDisk } =
      (.ok ⟨[("app/ui.strings", ["gone"])]⟩, { disk := rescueDisk }) := by
    decide +kernel
  have pathsAre : ({} : Audit).resources ["app"] rescueDisk = .ok ["app/ui.strings"] := by
    decide +kernel
  obtain ⟨paths, found, after, pathsEq, detected', kept⟩ := detect_of_append detected
  obtain rfl := Except.ok.inj (pathsEq.symm.trans pathsAre)
  exact ⟨detected, found, after, detected', kept _ (List.mem_singleton_self _) _ (List.mem_singleton_self _)⟩

end Audit

end StringAudit
