import StringAudit.Proofs.Collection.Traversal
import StringAudit.Proofs.Delivery
import StringAudit.Proofs.Detection.Pool
import StringAudit.Proofs.Resource.Extraction
import StringAudit.Proofs.TextFile

/-!
# What stops a detection

A detection finds something, or nothing, exactly if nothing stops it: all roots can be searched, all
source files can be read, and all resource files can be read and have no unfinished line.  Otherwise it
fails for one reason, and that is the first one in the order of its work: searching the roots, reading
the source files, scanning the resource files.
-/

namespace StringAudit

namespace Audit

variable {audit : Audit} {roots : List String} {storyboards : Bool} {disk : Disk}

/-! ## What can be read and scanned -/

/-- A file can be read. -/
def Readable (disk : Disk) (path : String) : Prop :=
  ∃ text, TextFile.read path disk = .ok text

/-- A resource file can be read, and every identifier line of it has a closing quote. -/
def Scannable (disk : Disk) (path : String) : Prop :=
  ∃ text, TextFile.read path disk = .ok text ∧
    ∀ line ∈ Text.lines text.toList, ¬ Resource.Unfinished line

/-- How a scan of a file fails: it cannot be read, or a line of it is unfinished, the first one of the
file. -/
inductive Spoils (disk : Disk) (path : String) : Failure → Prop
  | unread {failure : Failure} (readEq : TextFile.read path disk = .error failure) :
      Spoils disk path failure
  | unfinished {text : String} {above : List (List Char)} {line : List Char}
      (readEq : TextFile.read path disk = .ok text)
      (first : IsFirst Resource.Unfinished (Text.lines text.toList) above line) :
      Spoils disk path (.unclosed (String.ofList (Text.trim line)) (some path) (some (above.length + 1)))

theorem exists_scanFile_iff {corpus path : String} :
    (∃ ids, audit.scanFile corpus path disk = .ok ids) ↔ Scannable disk path := by
  constructor
  · rintro ⟨_, scanned⟩
    obtain ⟨text, names, readEq, extracted, -⟩ := scanFile_eq_ok_iff.mp scanned
    exact ⟨text, readEq, (Resource.identifiers_eq_ok_iff.mp extracted).1⟩
  · rintro ⟨text, readEq, finished⟩
    exact ⟨_, scanFile_eq_ok_iff.mpr
      ⟨text, _, readEq, Resource.identifiers_eq_ok_iff.mpr ⟨finished, rfl⟩, rfl⟩⟩

theorem scanFile_eq_error_iff {corpus path : String} {failure : Failure} :
    audit.scanFile corpus path disk = .error failure ↔ Spoils disk path failure := by
  rw [scanFile, Except.bind_eq_error_iff]
  constructor
  · rintro (unread | ⟨text, readEq, unusable⟩)
    · exact .unread unread
    · split at unusable
      · cases unusable
      · rename_i unclosed extracted
        cases unusable
        obtain ⟨above, line, first, rfl⟩ := Resource.identifiers_eq_error_iff.mp extracted
        exact .unfinished readEq first
  · rintro (unread | ⟨readEq, first⟩)
    · exact Or.inl unread
    · refine Or.inr ⟨_, readEq, ?_⟩
      rw [Resource.identifiers_eq_error_iff.mpr ⟨_, _, first, rfl⟩]
      rfl

/-! ## Loops over files -/

theorem joinedTexts_eq_mapM (disk : Disk) (paths : List String) :
    joinedTexts disk paths =
      (fun texts => texts.foldr (· ++ ·) "") <$> paths.mapM fun path => TextFile.read path disk := by
  induction paths with
  | nil => rfl
  | cons path rest ih =>
      rw [joinedTexts, ih, List.mapM_cons]
      cases TextFile.read path disk <;> cases rest.mapM fun path => TextFile.read path disk <;> rfl

theorem exists_joinedTexts_iff {paths : List String} :
    (∃ corpus, joinedTexts disk paths = .ok corpus) ↔ ∀ path ∈ paths, Readable disk path := by
  rw [joinedTexts_eq_mapM, Except.exists_map_iff, Pool.exists_mapM_iff]
  rfl

theorem joinedTexts_eq_error_iff {paths : List String} {failure : Failure} :
    joinedTexts disk paths = .error failure ↔
      ∃ front path, IsFirst (fun path => ¬ Readable disk path) paths front path ∧
        TextFile.read path disk = .error failure := by
  rw [joinedTexts_eq_mapM, Except.map_eq_error_iff]
  exact Pool.mapM_eq_error_iff fun path => Iff.rfl

theorem exists_scanTask_iff {corpus path : String} :
    (∃ result, audit.scanTask corpus disk path = .ok result) ↔ Scannable disk path := by
  rw [← exists_scanFile_iff, scanTask]
  exact Except.exists_map_iff

theorem exists_scanFiles_iff {corpus : String} {paths : List String} :
    (∃ scanned, audit.scanFiles corpus disk paths = .ok scanned) ↔
      ∀ path ∈ paths, Scannable disk path := by
  rw [scanFiles_eq_mapM, Pool.exists_mapM_iff]
  simp only [exists_scanTask_iff]

theorem scanFiles_eq_error_iff {corpus : String} {paths : List String} {failure : Failure} :
    audit.scanFiles corpus disk paths = .error failure ↔
      ∃ front path, IsFirst (fun path => ¬ Scannable disk path) paths front path ∧
        Spoils disk path failure := by
  rw [scanFiles_eq_mapM, Pool.mapM_eq_error_iff fun path => not_congr exists_scanTask_iff.symm]
  refine exists_congr fun front => exists_congr fun path => and_congr_right fun _ => ?_
  rw [← scanFile_eq_error_iff, scanTask]
  exact Except.map_eq_error_iff

/-! ## The whole detection -/

/-- Nothing stops a detection. -/
structure Unhindered (audit : Audit) (roots : List String) (storyboards : Bool) (disk : Disk) : Prop where
  searchable : ∀ root ∈ roots, Collection.Searchable disk audit.ignored root
  readable : ∀ sources, audit.sources roots storyboards disk = .ok sources →
    ∀ path ∈ sources, Readable disk path
  scannable : ∀ paths, audit.resources roots disk = .ok paths → ∀ path ∈ paths, Scannable disk path

/-- What stops a detection first. -/
inductive Stops (audit : Audit) (roots : List String) (storyboards : Bool) (disk : Disk) : Failure → Prop
  | search {front : List String} {root : String} {failure : Failure}
      (first : IsFirst (fun root => ¬ Collection.Searchable disk audit.ignored root) roots front root)
      (blocked : Collection.Blocked disk audit.ignored root failure) :
      Stops audit roots storyboards disk failure
  | source {sources front : List String} {path : String} {failure : Failure}
      (sourcesEq : audit.sources roots storyboards disk = .ok sources)
      (first : IsFirst (fun path => ¬ Readable disk path) sources front path)
      (unread : TextFile.read path disk = .error failure) : Stops audit roots storyboards disk failure
  | resource {sources paths front : List String} {path : String} {failure : Failure}
      (sourcesEq : audit.sources roots storyboards disk = .ok sources)
      (readable : ∀ source ∈ sources, Readable disk source)
      (pathsEq : audit.resources roots disk = .ok paths)
      (first : IsFirst (fun path => ¬ Scannable disk path) paths front path)
      (spoils : Spoils disk path failure) : Stops audit roots storyboards disk failure

/-- What a detection comes to on a disk, its lines apart. -/
def comesTo (audit : Audit) (roots : List String) (storyboards : Bool) (disk : Disk) :
    Except Failure Findings := do
  let sources ← audit.sources roots storyboards disk
  let corpus ← joinedTexts disk sources
  let paths ← audit.resources roots disk
  let scanned ← audit.scanFiles corpus disk paths
  pure (scanned.foldl Findings.tally {})

theorem comesTo_eq (audit : Audit) (roots : List String) (storyboards : Bool) (disk : Disk) :
    audit.comesTo roots storyboards disk = (do
      let corpus ← audit.corpus roots storyboards disk
      let paths ← audit.resources roots disk
      let scanned ← audit.scanFiles corpus disk paths
      pure (scanned.foldl Findings.tally {})) := by
  rw [comesTo, corpus, bind_assoc]

/-- With sound writers and a number of workers that is possible, a detection depends on the disk alone.
-/
theorem seen_detect (possible : audit.workers.any (· < 1) = false)
    (progress : ∀ w, audit.progress = some w → w.Sound) (notes : ∀ w, audit.notes = some w → w.Sound)
    (roots : List String) (storyboards : Bool) (disk : Disk) :
    (audit.detect roots storyboards).seen disk = audit.comesTo roots storyboards disk := by
  have announced : ∀ line, (Writer.announce audit.progress line).seen disk = .ok () :=
    fun line => Writer.seen_announce_eq_ok_iff.mpr (Writer.canAnnounce_of_sound progress line)
  have scans : ∀ corpus paths, (audit.scanAll corpus paths).seen disk =
      (fun scanned => scanned.foldl Findings.tally {}) <$> audit.scanFiles corpus disk paths := by
    intro corpus paths
    cases scannedEq : audit.scanFiles corpus disk paths with
    | ok scanned =>
        exact seen_scanAll_eq_ok_iff.mpr ⟨fun _ => possible, scanned, scannedEq, rfl,
          fun _ _ _ => Writer.canAnnounce_of_sound notes _⟩
    | error failure =>
        rw [Action.seen, perform_scanAll possible, ← scanFiles_eq_mapM, scannedEq]
        rfl
  have counted := fun corpus (paths : List String) =>
    audit.looksOnly_announce_scanAll (scanLine paths.length) corpus paths
  have listed := fun corpus => Action.LooksOnly.bind (.ask (audit.resources roots)) (counted corpus)
  rw [detect_eq, (Writer.looksOnly_announce _ _).seen_bind fun _ => .bind (.ask _) listed, announced]
  change (Action.ask _ >>= _).seen disk = _
  rw [(Action.LooksOnly.ask _).seen_bind listed, Action.seen_ask, corpus, bind_assoc]
  refine bind_congr fun sources => bind_congr fun corpus => ?_
  rw [(Action.LooksOnly.ask _).seen_bind (counted corpus), Action.seen_ask]
  refine bind_congr fun paths => ?_
  rw [(Writer.looksOnly_announce _ _).seen_bind fun _ => looksOnly_scanAll corpus paths, announced]
  exact scans corpus paths

theorem exists_sources_iff :
    (∃ sources, audit.sources roots storyboards disk = .ok sources) ↔
      ∀ root ∈ roots, Collection.Searchable disk audit.ignored root :=
  Collection.exists_collect_iff

theorem exists_resources_iff :
    (∃ paths, audit.resources roots disk = .ok paths) ↔
      ∀ root ∈ roots, Collection.Searchable disk audit.ignored root :=
  Collection.exists_collect_iff

/-- A detection comes to findings exactly if nothing stops it. -/
theorem exists_comesTo_iff :
    (∃ found, audit.comesTo roots storyboards disk = .ok found) ↔
      audit.Unhindered roots storyboards disk := by
  constructor
  · rintro ⟨found, come⟩
    obtain ⟨sources, sourcesEq, come⟩ := Except.bind_eq_ok_iff.mp come
    obtain ⟨corpus, joined, come⟩ := Except.bind_eq_ok_iff.mp come
    obtain ⟨paths, pathsEq, come⟩ := Except.bind_eq_ok_iff.mp come
    obtain ⟨scanned, scannedEq, -⟩ := Except.bind_eq_ok_iff.mp come
    constructor
    case searchable => exact exists_sources_iff.mp ⟨sources, sourcesEq⟩
    case readable =>
      intro other otherEq
      obtain rfl := Except.ok.inj (sourcesEq.symm.trans otherEq)
      exact exists_joinedTexts_iff.mp ⟨corpus, joined⟩
    case scannable =>
      intro other otherEq
      obtain rfl := Except.ok.inj (pathsEq.symm.trans otherEq)
      exact exists_scanFiles_iff.mp ⟨scanned, scannedEq⟩
  · rintro ⟨searchable, readable, scannable⟩
    obtain ⟨sources, sourcesEq⟩ := exists_sources_iff.mpr searchable
    obtain ⟨paths, pathsEq⟩ := exists_resources_iff.mpr searchable
    obtain ⟨corpus, joined⟩ := exists_joinedTexts_iff.mpr (readable sources sourcesEq)
    obtain ⟨scanned, scannedEq⟩ := exists_scanFiles_iff.mpr (scannable paths pathsEq)
    refine ⟨scanned.foldl Findings.tally {}, Except.bind_eq_ok_iff.mpr ⟨sources, sourcesEq, ?_⟩⟩
    refine Except.bind_eq_ok_iff.mpr ⟨corpus, joined, Except.bind_eq_ok_iff.mpr ⟨paths, pathsEq, ?_⟩⟩
    exact Except.bind_eq_ok_iff.mpr ⟨scanned, scannedEq, rfl⟩

/-- A detection fails for the reason that stops it first. -/
theorem comesTo_eq_error_iff {failure : Failure} :
    audit.comesTo roots storyboards disk = .error failure ↔
      audit.Stops roots storyboards disk failure := by
  simp only [comesTo, Except.bind_eq_error_iff]
  constructor
  · rintro (unsearched | ⟨sources, sourcesEq, unread | ⟨corpus, joined, onward⟩⟩)
    · obtain ⟨_, _, first, blocked⟩ := Collection.collect_eq_error_iff.mp unsearched
      exact .search first blocked
    · obtain ⟨_, _, first, unread⟩ := joinedTexts_eq_error_iff.mp unread
      exact .source sourcesEq first unread
    rcases onward with unsearched | ⟨paths, pathsEq, spoiled | ⟨_, _, ended⟩⟩
    · -- What was searched for source files can be searched for resource files.
      obtain ⟨paths, pathsEq⟩ := exists_resources_iff.mpr (exists_sources_iff.mp ⟨sources, sourcesEq⟩)
      cases pathsEq.symm.trans unsearched
    · obtain ⟨_, _, first, spoils⟩ := scanFiles_eq_error_iff.mp spoiled
      exact .resource sourcesEq (exists_joinedTexts_iff.mp ⟨corpus, joined⟩) pathsEq first spoils
    · cases ended
  · intro stops
    cases stops with
    | search first blocked =>
        exact Or.inl (Collection.collect_eq_error_iff.mpr ⟨_, _, first, blocked⟩)
    | source sourcesEq first unread =>
        exact Or.inr ⟨_, sourcesEq, Or.inl (joinedTexts_eq_error_iff.mpr ⟨_, _, first, unread⟩)⟩
    | resource sourcesEq readable pathsEq first spoils =>
        obtain ⟨corpus, joined⟩ := exists_joinedTexts_iff.mpr readable
        exact Or.inr ⟨_, sourcesEq, Or.inr ⟨corpus, joined, Or.inr
          ⟨_, pathsEq, Or.inl (scanFiles_eq_error_iff.mpr ⟨_, _, first, spoils⟩)⟩⟩⟩

/-- A file with a path that can be used is not read for a reason that is reported. -/
theorem reported_of_read {path : String} {failure : Failure} (usable : Disk.isUsable path = true)
    (unread : TextFile.read path disk = .error failure) : ¬ failure.Unreported := by
  obtain ⟨_, rfl⟩ := TextFile.reason_of_read usable unread
  exact id

/-- What stops a detection is reported, if every name on the disk can be part of a path. -/
theorem Stops.reported {failure : Failure} (stops : audit.Stops roots storyboards disk failure)
    (legible : Collection.Legible disk.root) : ¬ failure.Unreported := by
  cases stops with
  | search first blocked => cases blocked <;> exact id
  | source sourcesEq first unread =>
      exact reported_of_read (Collection.isUsable_of_collect legible sourcesEq _ first.mem) unread
  | resource sourcesEq readable pathsEq first spoils =>
      cases spoils with
      | unread readEq =>
          exact reported_of_read (Collection.isUsable_of_collect legible pathsEq _ first.mem) readEq
      | unfinished => exact id

/-- A detection comes to findings exactly if nothing stops it, and else it fails for the reason that
stops it first. -/
theorem detect_all_or_nothing (possible : ∀ k, audit.workers = some k → 1 ≤ k)
    (progress : ∀ w, audit.progress = some w → w.Sound) (notes : ∀ w, audit.notes = some w → w.Sound)
    (roots : List String) (storyboards : Bool) (before : RunState) :
    ((∃ found after, (audit.detect roots storyboards).perform before = (.ok found, after)) ↔
      audit.Unhindered roots storyboards before.disk) ∧
    (¬ audit.Unhindered roots storyboards before.disk → ∃ failure after,
      (audit.detect roots storyboards).perform before = (.error failure, after) ∧
      (∀ other, audit.Stops roots storyboards before.disk other ↔ other = failure) ∧
      (Collection.Legible before.disk.root → ¬ failure.Unreported)) := by
  have workers : audit.workers.any (· < 1) = false := by
    rw [Option.any_eq_false]
    intro k workersEq
    simpa using possible k workersEq
  have looks : (audit.detect roots storyboards).LooksOnly := looksOnly_detect roots storyboards
  have succeeds : ∀ found, (∃ after, (audit.detect roots storyboards).perform before = (.ok found, after)) ↔
      audit.comesTo roots storyboards before.disk = .ok found := by
    intro found
    rw [looks.exists_perform_eq_ok_iff, seen_detect workers progress notes]
  constructor
  · rw [← exists_comesTo_iff]
    exact exists_congr succeeds
  · intro hindered
    cases come : audit.comesTo roots storyboards before.disk with
    | ok found => exact absurd (exists_comesTo_iff.mp ⟨found, come⟩) hindered
    | error failure =>
        have stops := comesTo_eq_error_iff.mp come
        refine ⟨failure, _, Prod.ext ?_ rfl, ?_, stops.reported⟩
        · rw [looks.perform_fst, seen_detect workers progress notes, come]
        · intro other
          rw [← comesTo_eq_error_iff, come, Except.error.injEq, eq_comm]

/-- A directory that cannot be listed, a source file that cannot be read, and a resource file whose second
line is unfinished. -/
def tangledDisk : Disk where
  root := .folder "app"
    (.folder "closed" .empty
      (.file "main.m" ⟨Charset.Utf8.encode "use(@\"kept\");".toList, 0o644⟩
        (.file "ui.strings" ⟨Charset.Utf8.encode "\"kept\" = \"a\";\n\"gone".toList, 0o644⟩ .empty)))
    .empty
  here := []
  refusals := { listing := ["app/closed"], reading := ["app/main.m"] }

/-- On `tangledDisk` the directory stops a detection, and nothing else does. -/
theorem detect_all_or_nothing_tangledDisk :
    let audit : Audit := { workers := some 1, notes := some (Writer.err "utf-8") }
    let closed : Failure := .unlistable "app/closed" "Permission denied"
    ¬ audit.Unhindered ["app"] false tangledDisk ∧ ¬ closed.Unreported ∧
      ∀ other, audit.Stops ["app"] false tangledDisk other ↔ other = closed := by
  intro audit closed
  have possible : ∀ k, audit.workers = some k → 1 ≤ k := by
    rintro _ ⟨⟩
    decide
  have sound : ∀ w, audit.notes = some w → w.Sound := by
    rintro _ ⟨⟩
    exact .of_ascii (show Charset.meaning "utf-8" = .charset (.utf8 false) by decide +kernel) (by decide)
  have failed : (audit.detect ["app"] false).perform { disk := tangledDisk } =
      (.error closed, { disk := tangledDisk }) := by
    decide +kernel
  obtain ⟨succeeds, fails⟩ := detect_all_or_nothing possible (by rintro _ ⟨⟩) sound ["app"] false
    { disk := tangledDisk }
  have hindered : ¬ audit.Unhindered ["app"] false tangledDisk := by
    intro unhindered
    obtain ⟨_, _, succeeded⟩ := succeeds.mpr unhindered
    cases succeeded.symm.trans failed
  obtain ⟨_, _, failedSo, only, reported⟩ := fails hindered
  cases failedSo.symm.trans failed
  exact ⟨hindered, reported (by decide +kernel), only⟩

end Audit

end StringAudit
