import StringAudit.CommandLine.Run
import StringAudit.Proofs.Cleanup.Frame
import StringAudit.Proofs.Detection
import StringAudit.Yaml.Load

/-!
# What a run changes

A run that succeeds either stops before it searches, and changes nothing, or surveys the disk and
concludes.  `survey` is its part up to the findings, which only looks.  What is left saves the
document and cleans files, so that the disk changes at the entries of these paths alone.
-/

namespace StringAudit.CommandLine

/-- The part of a run with options up to its findings. -/
def survey [Yaml.Loader] (options : Options) : Action (Settings × Findings) := do
  let settings ← settings options
  let workers ← Action.ofResult (workers options settings)
  let audit := audit options settings workers
  Writer.announce audit.progress banner
  let found ← audit.detect options.roots options.storyboards
  pure (settings, found)

/-- A run with arguments gets as far as findings. -/
structure Reaches [Yaml.Loader] (args : List String) (before : RunState) (options : Options)
    (settings : Settings) (found : Findings) : Prop where
  accepted : request args = .accepted options
  rooted : options.roots ≠ []
  surveyed : ∃ searched, (survey options).perform before = (.ok (settings, found), searched)

/-- How a run cleans files. -/
def cleanup (settings : Settings) : Cleanup :=
  ⟨settings.charset, some (Writer.out settings.charset), some (Writer.err settings.charset)⟩

/-- The part of a run that saves the document, if one is asked for. -/
def saving (stamp : Report.Stamp) (options : Options) (settings : Settings) (found : Findings) :
    Action Unit :=
  match documentPath? options with
  | some path =>
      saveDocument (Writer.err settings.charset) (.of stamp options.roots options.storyboards found) path
  | none => pure ()

/-- The part of a run that cleans files, if that is asked for. -/
def cleaning (options : Options) (settings : Settings) (found : Findings) : Action Unit :=
  if (options.write && !found.isEmpty) = true then discard ((cleanup settings).apply found)
  else pure ()

theorem conclude_eq (stamp : Report.Stamp) (options : Options) (settings : Settings)
    (found : Findings) :
    conclude stamp options settings found =
      Report.display (Writer.out settings.charset) found >>= fun _ =>
        saving stamp options settings found >>= fun _ => cleaning options settings found := by
  simp only [conclude, saving, cleaning, cleanup]
  cases documentPath? options with
  | none => rfl
  | some path => rfl

/-! ## Looking before changing -/

theorem looksOnly_settings [Yaml.Loader] (options : Options) : (settings options).LooksOnly :=
  .bind (.ofResult _) fun _ => .ask _

theorem looksOnly_survey [Yaml.Loader] (options : Options) : (survey options).LooksOnly := by
  refine .bind (looksOnly_settings options) fun settings => ?_
  refine .bind (.ofResult _) fun workers => ?_
  refine .bind (Writer.looksOnly_announce _ _) fun _ => ?_
  exact .bind (Audit.looksOnly_detect _ _) fun _ => .pure _

theorem looksOnly_display (w : Writer) (listing : Report.Listing) :
    (Report.display w listing).LooksOnly :=
  .forM fun line _ => w.looksOnly_put (line ++ "\n")

theorem looksOnly_printTo (outlet : Outlet) (text : String) : (printTo outlet text).LooksOnly where
  disk_eq := fun _ => rfl
  continues := fun _ => Console.continues_send _ outlet _
  outcome_eq := fun _ _ => rfl

/-- The findings of a survey are those of the disk. -/
theorem finds_of_survey [Yaml.Loader] {options : Options} {before after : RunState} {settings : Settings}
    {found : Findings} (surveyed : (survey options).perform before = (.ok (settings, found), after)) :
    ∃ (audit : Audit) (corpus : String) (paths : List String),
      audit.Finds options.roots options.storyboards before.disk corpus paths found := by
  rw [survey] at surveyed
  obtain ⟨loaded, s₁, loadedEq, surveyed⟩ := Action.perform_bind_eq_ok_iff.mp surveyed
  obtain ⟨workers, s₂, workersEq, surveyed⟩ := Action.perform_bind_eq_ok_iff.mp surveyed
  obtain ⟨_, s₃, announced, surveyed⟩ := Action.perform_bind_eq_ok_iff.mp surveyed
  obtain ⟨detected, s₄, detectedEq, returned⟩ := Action.perform_bind_eq_ok_iff.mp surveyed
  cases returned
  obtain ⟨corpus, paths, finds⟩ := Audit.finds_of_perform_detect detectedEq
  rw [((Writer.looksOnly_announce _ _).frame announced).1,
    ((Action.LooksOnly.ofResult _).frame workersEq).1, ((looksOnly_settings options).frame loadedEq).1] at finds
  exact ⟨_, corpus, paths, finds⟩

/-! ## The stages of a run -/

/-- No failure ends in success. -/
theorem not_success_of_fail {err : Writer} {failure : Failure} {before after : RunState} :
    (fail err failure).perform before ≠ (.ok .success, after) := by
  intro failed
  cases failure
  case breakdown => cases failed
  case unreportable => cases failed
  all_goals
    obtain ⟨_, _, _, returned⟩ := Action.perform_bind_eq_ok_iff.mp failed
    cases returned

/-- A run with options succeeds by surveying and concluding. -/
theorem stages_of_runOptions [Yaml.Loader] {stamp : Report.Stamp} {options : Options}
    {before after : RunState}
    (ran : (runOptions stamp options).perform before = (.ok .success, after)) :
    ∃ settings found searched, (survey options).perform before = (.ok (settings, found), searched) ∧
      (conclude stamp options settings found).perform searched = (.ok (), after) := by
  rw [runOptions] at ran
  obtain ⟨outcome, s₁, loadedEq, ran⟩ := Action.perform_bind_eq_ok_iff.mp ran
  rcases loaded : (settings options).perform before with ⟨failure | settings, looked⟩
  · rw [Action.perform_outcome, loaded] at loadedEq
    cases loadedEq
    exact absurd ran not_success_of_fail
  rw [Action.perform_outcome, loaded] at loadedEq
  cases loadedEq
  obtain ⟨workers, s₂, workersEq, ran⟩ := Action.perform_bind_eq_ok_iff.mp ran
  split at ran
  · exact absurd ran not_success_of_fail
  rw [search] at ran
  obtain ⟨_, s₃, announced, ran⟩ := Action.perform_bind_eq_ok_iff.mp ran
  obtain ⟨outcome, s₄, outcomeEq, ran⟩ := Action.perform_bind_eq_ok_iff.mp ran
  rcases detected : ((audit options settings workers).detect options.roots options.storyboards).perform s₃
    with ⟨failure | found, searched⟩
  · rw [Action.perform_outcome, detected] at outcomeEq
    cases outcomeEq
    exact absurd ran not_success_of_fail
  rw [Action.perform_outcome, detected] at outcomeEq
  cases outcomeEq
  obtain ⟨_, s₅, concluded, returned⟩ := Action.perform_bind_eq_ok_iff.mp ran
  cases returned
  refine ⟨settings, found, searched, ?_, concluded⟩
  rw [survey]
  refine Action.perform_bind_eq_ok_iff.mpr ⟨settings, _, loaded, ?_⟩
  refine Action.perform_bind_eq_ok_iff.mpr ⟨workers, _, workersEq, ?_⟩
  refine Action.perform_bind_eq_ok_iff.mpr ⟨(), _, announced, ?_⟩
  exact Action.perform_bind_eq_ok_iff.mpr ⟨found, _, detected, rfl⟩

/-- A run that succeeds looks only, or it reaches findings and concludes. -/
theorem stages_of_run [Yaml.Loader] {stamp : Report.Stamp} {args : List String} {before after : RunState}
    (ran : (run stamp args).perform before = (.ok .success, after)) :
    ((¬ ∃ options settings found, Reaches args before options settings found) ∧
        after.disk = before.disk) ∨
      ∃ options settings found searched, Reaches args before options settings found ∧
        (survey options).perform before = (.ok (settings, found), searched) ∧
        (conclude stamp options settings found).perform searched = (.ok (), after) := by
  rw [run] at ran
  split at ran
  · rename_i requested
    obtain ⟨_, between, printed, returned⟩ := Action.perform_bind_eq_ok_iff.mp ran
    cases returned
    refine Or.inl ⟨?_, ((looksOnly_printTo _ _).frame printed).1⟩
    rintro ⟨options, _, _, reaches⟩
    cases requested.symm.trans reaches.accepted
  · obtain ⟨_, between, printed, returned⟩ := Action.perform_bind_eq_ok_iff.mp ran
    cases returned
  · rename_i options requested
    split at ran
    · rename_i rootless
      obtain ⟨_, between, printed, returned⟩ := Action.perform_bind_eq_ok_iff.mp ran
      cases returned
      refine Or.inl ⟨?_, ((Writer.looksOnly_write _ _).frame printed).1⟩
      rintro ⟨options', _, _, reaches⟩
      obtain rfl : options = options' := by simpa using requested.symm.trans reaches.accepted
      exact reaches.rooted rootless
    · rename_i rooted
      obtain ⟨settings, found, searched, surveyed, concluded⟩ := stages_of_runOptions ran
      exact Or.inr ⟨options, settings, found, searched, ⟨requested, rooted, searched, surveyed⟩,
        surveyed, concluded⟩

/-- The findings that a run reaches are determined. -/
theorem Reaches.unique [Yaml.Loader] {args : List String} {before : RunState} {options options' : Options}
    {settings settings' : Settings} {found found' : Findings}
    (reaches : Reaches args before options settings found)
    (other : Reaches args before options' settings' found') :
    options = options' ∧ settings = settings' ∧ found = found' := by
  obtain rfl : options = options' := by
    simpa using reaches.accepted.symm.trans other.accepted
  obtain ⟨_, surveyed⟩ := reaches.surveyed
  obtain ⟨_, surveyed'⟩ := other.surveyed
  rw [surveyed] at surveyed'
  cases surveyed'
  exact ⟨rfl, rfl, rfl⟩

/-! ## Saving the document -/

/-- Saving the document overwrites the entry that its path names, or it leaves the disk as it is. -/
theorem perform_saveDocument_cases {err : Writer} {document : Report.Document} {path : String}
    {before after : RunState}
    (saved : (saveDocument err document path).perform before = (.ok (), after)) :
    after.console.Continues before.console ∧
      (after.disk.Agrees before.disk ∨ ∃ place name contents,
        before.disk.holder (.parse path) = .ok (place, some name) ∧
        after.disk.Overwrites before.disk (place ++ [name]) contents) := by
  rw [saveDocument] at saved
  obtain ⟨outcome, between, outcomeEq, concluded⟩ := Action.perform_bind_eq_ok_iff.mp saved
  rcases tried : TextFile.replace path document.text "utf-8" before.disk with ⟨attempt, disk⟩
  rw [Action.perform_outcome, Report.Document.save, Action.perform_onDisk, tried, Prod.mk.injEq,
    Except.ok.injEq] at outcomeEq
  obtain ⟨rfl, rfl⟩ := outcomeEq
  rcases TextFile.replace_cases tried with ⟨failure, rfl, agrees⟩ |
    ⟨rfl, place, name, contents, replaces⟩
  · simp only at concluded
    split at concluded
    · obtain ⟨alarmDisk, continues⟩ := (err.looksOnly_write _).frame concluded
      exact ⟨continues, Or.inl (alarmDisk ▸ agrees)⟩
    · cases concluded
  · obtain rfl : _ = after := by simpa using concluded
    exact ⟨.refl _, Or.inr ⟨place, name, contents, replaces.held, replaces.overwrites⟩⟩

/-- The paths of findings lead to different files, none of which is at the path of the document. -/
structure Apart (options : Options) (found : Findings) (disk : Disk) : Prop where
  different : ∀ a ∈ found.entries, ∀ b ∈ found.entries, a.1 ≠ b.1 → disk.target? a.1 ≠ disk.target? b.1
  clear : ∀ path, documentPath? options = some path →
    ∀ entry ∈ found.entries, disk.target? entry.1 ≠ disk.target? path

/-- The document was saved at some places, the entry of its path or none, and no path of the
findings leads to one of them. -/
structure Saved (options : Options) (found : Findings) (first : Disk) (reserved : List Place)
    (disk : Disk) : Prop where
  overlays : disk.Overlays first reserved
  owned : ∀ spot ∈ reserved, ∃ path, documentPath? options = some path ∧
    first.entryPlace? path = some spot
  untouched : ∀ entry ∈ found.entries, ∀ links goal,
    disk.Leads (.parse entry.1) links goal → goal ∉ reserved

/-- No path of the findings leads to the saved document: it would have led, before, to where the
path of the document led. -/
theorem not_leads_saved {options : Options} {found : Findings} {first disk : Disk} {path : String}
    {place : Place} {name : String} {contents : File} (apart : Apart options found first)
    (asked : documentPath? options = some path)
    (held : first.holder (.parse path) = .ok (place, some name))
    (overwrites : disk.Overwrites first (place ++ [name]) contents)
    {entry : String × List String} (mem : entry ∈ found.entries)
    (readable : ∃ text, TextFile.read entry.1 first = .ok text) (links : Nat) :
    ¬ disk.Leads (.parse entry.1) links (place ++ [name]) := by
  intro leads
  obtain ⟨text, readEq⟩ := readable
  obtain ⟨total, goal, _, reads, _⟩ := TextFile.read_eq_ok_iff.mp readEq
  have away : (Path.parse entry.1).base disk.here ≠ place ++ [name] := by
    obtain ⟨piece, pieces, namesEq⟩ := List.exists_cons_of_ne_nil reads.named
    rw [Disk.Leads, namesEq] at leads
    exact overwrites.ne_of_folder leads.folder_of_cons
  have whole := reads.leads
  rw [Disk.Leads, ← overwrites.here_eq] at whole
  obtain ⟨onward, totalEq, last⟩ := (overwrites.route_before_iff leads away total goal).mp whole
  have few := reads.few
  have documentTarget : first.target? path = some goal :=
    Disk.target?_eq_some_iff.mpr ⟨place, name, held, onward, by omega, last⟩
  exact apart.clear path asked entry mem (reads.target?_eq.trans documentTarget.symm)

theorem saved_of_saving {stamp : Report.Stamp} {options : Options} {settings : Settings}
    {found : Findings} {before after : RunState} (apart : Apart options found before.disk)
    (readable : ∀ entry ∈ found.entries, ∃ text, TextFile.read entry.1 before.disk = .ok text)
    (saved : (saving stamp options settings found).perform before = (.ok (), after)) :
    after.console.Continues before.console ∧
      ∃ reserved, Saved options found before.disk reserved after.disk := by
  have unchanged : after.disk.Agrees before.disk → Saved options found before.disk [] after.disk := by
    intro agrees
    exact ⟨.of_agrees agrees, fun _ mem => absurd mem List.not_mem_nil,
      fun _ _ _ _ _ => List.not_mem_nil⟩
  rw [saving] at saved
  split at saved
  · rename_i path asked
    obtain ⟨continues, agrees | ⟨place, name, contents, held, overwrites⟩⟩ :=
      perform_saveDocument_cases saved
    · exact ⟨continues, [], unchanged agrees⟩
    · refine ⟨continues, [place ++ [name]], overwrites.overlays_self, ?_, ?_⟩
      · intro spot mem
        obtain rfl := List.mem_singleton.mp mem
        exact ⟨path, asked, Disk.entryPlace?_eq_some_iff.mpr ⟨place, name, held, rfl⟩⟩
      · intro entry mem links goal leads reserved
        obtain rfl := List.mem_singleton.mp reserved
        exact not_leads_saved apart asked held overwrites mem (readable entry mem) links leads
  · cases saved
    exact ⟨.refl _, [], unchanged (.refl _)⟩

/-! ## What changes -/

/-- What may change on the disk, and what becomes of the files of findings: places other than the
entries of the document and, in write mode, of the findings stay as they are, and in write mode each
of these files is settled: it is as it was and standard error has a line on it, or it has the text
that is left. -/
structure Changes (options : Options) (settings : Settings) (found : Findings)
    (before after : RunState) : Prop where
  frame : ∀ place,
    (∀ path, documentPath? options = some path → before.disk.entryPlace? path ≠ some place) →
    (options.write = true → ∀ entry ∈ found.entries, before.disk.entryPlace? entry.1 ≠ some place) →
    after.disk.look place = before.disk.look place
  settled : options.write = true → ∀ entry ∈ found.entries,
    (cleanup settings).Settled before.disk before.console after entry

/-- Findings of different files are separate from the document. -/
theorem separate_of_finds {audit : Audit} {options : Options} {first disk : Disk} {corpus : String}
    {paths : List String} {found : Findings} {reserved : List Place}
    (finds : audit.Finds options.roots options.storyboards first corpus paths found)
    (apart : Apart options found first) (saved : Saved options found first reserved disk) :
    Cleanup.Separate first found.entries reserved where
  readable := fun _ mem => finds.readable mem
  apart := by
    intro a aMem b bMem different
    refine apart.different a aMem b bMem fun same => different ?_
    exact List.inj_on_of_nodup_map finds.distinct aMem bMem same
  clear := by
    intro entry mem spot entryEq spotMem
    obtain ⟨path, asked, pathEq⟩ := saved.owned spot spotMem
    exact apart.clear path asked entry mem (Disk.target?_eq_of_entryPlace?_eq entryEq pathEq)

theorem changes_of_conclude [Yaml.Loader] {stamp : Report.Stamp} {options : Options} {settings : Settings}
    {found : Findings} {before searched after : RunState}
    (surveyed : (survey options).perform before = (.ok (settings, found), searched))
    (apart : Apart options found before.disk)
    (concluded : (conclude stamp options settings found).perform searched = (.ok (), after)) :
    Changes options settings found before after := by
  obtain ⟨audit, corpus, paths, finds⟩ := finds_of_survey surveyed
  obtain ⟨surveyedDisk, surveyedConsole⟩ := (looksOnly_survey options).frame surveyed
  rw [conclude_eq] at concluded
  obtain ⟨_, displayed, displayedEq, concluded⟩ := Action.perform_bind_eq_ok_iff.mp concluded
  obtain ⟨_, kept, savedEq, cleaned⟩ := Action.perform_bind_eq_ok_iff.mp concluded
  obtain ⟨displayedDisk, displayedConsole⟩ := (looksOnly_display _ _).frame displayedEq
  have sameDisk : displayed.disk = before.disk := displayedDisk.trans surveyedDisk
  obtain ⟨keptConsole, reserved, saved⟩ :=
    saved_of_saving (sameDisk ▸ apart) (fun entry mem => sameDisk ▸ finds.readable mem) savedEq
  rw [sameDisk] at saved
  rw [cleaning] at cleaned
  split at cleaned
  · rename_i writes
    obtain ⟨result, applied⟩ := Action.perform_discard_eq_ok_iff.mp cleaned
    obtain ⟨spots, midway⟩ := Cleanup.perform_apply_settled (separate_of_finds finds apart saved)
      (.of_map _ finds.distinct) saved.overlays saved.untouched applied
    constructor
    · intro place notDocument notFound
      refine midway.overlays.look_eq place fun mem => ?_
      rcases midway.owned place mem with document | ⟨entry, entryMem, _, entryEq⟩
      · obtain ⟨path, asked, pathEq⟩ := saved.owned place document
        exact notDocument path asked pathEq
      · rw [Bool.and_eq_true] at writes
        exact notFound writes.1 entry entryMem entryEq
    · intro _ entry mem
      exact (midway.settled entry mem List.not_mem_nil).mono
        (keptConsole.trans (displayedConsole.trans surveyedConsole))
  · rename_i stays
    cases cleaned
    constructor
    · intro place notDocument _
      refine saved.overlays.look_eq place fun mem => ?_
      obtain ⟨path, asked, pathEq⟩ := saved.owned place mem
      exact notDocument path asked pathEq
    · intro writes entry mem
      have nothing : found.entries = [] := by
        simpa [writes, Findings.isEmpty] using stays
      rw [nothing] at mem
      exact absurd mem List.not_mem_nil

/-- A run that succeeds changes nothing unless it reaches findings, and then, if their paths lead to
different files, none of them that of the document, only the entries of these paths and of the
document. -/
theorem disk_of_run [Yaml.Loader] {stamp : Report.Stamp} {args : List String} {before after : RunState}
    (ran : (run stamp args).perform before = (.ok .success, after)) :
    ((∀ options settings found, ¬ Reaches args before options settings found) →
        after.disk = before.disk) ∧
      ∀ options settings found, Reaches args before options settings found →
        Apart options found before.disk → Changes options settings found before after := by
  rcases stages_of_run ran with ⟨unreached, same⟩ |
    ⟨options, settings, found, searched, reaches, surveyed, concluded⟩
  · exact ⟨fun _ => same, fun options settings found reaches =>
      absurd ⟨options, settings, found, reaches⟩ unreached⟩
  · refine ⟨fun unreached => absurd reaches (unreached options settings found), ?_⟩
    intro options' settings' found' other apart
    obtain ⟨rfl, rfl, rfl⟩ := reaches.unique other
    exact changes_of_conclude surveyed apart concluded

/-- On `smallDisk`, a run that saves a document and cleans files changes what it may. -/
theorem disk_of_run_smallDisk :
    let options : Options := { roots := ["app"], write := true, json := .given "out.json" }
    let before : RunState := { disk := Audit.smallDisk }
    ∃ after, (run ⟨"1", "2"⟩ ["app", "--write", "--json", "out.json"]).perform before =
        (.ok .success, after) ∧
      after.disk.look ["app", "main.m"] = before.disk.look ["app", "main.m"] ∧
      Changes options {} ⟨[("app/ui.strings", ["gone"])]⟩ before after := by
  intro options before
  have succeeded : ((run ⟨"1", "2"⟩ ["app", "--write", "--json", "out.json"]).perform before).1 =
      .ok .success := by
    decide +kernel
  have ran : (run ⟨"1", "2"⟩ ["app", "--write", "--json", "out.json"]).perform before =
      (.ok .success, ((run ⟨"1", "2"⟩ ["app", "--write", "--json", "out.json"]).perform before).2) :=
    Prod.ext succeeded rfl
  have surveyed : ((survey options).perform before).1 =
      .ok ({}, ⟨[("app/ui.strings", ["gone"])]⟩) := by
    decide +kernel
  have reaches : Reaches ["app", "--write", "--json", "out.json"] before options {}
      ⟨[("app/ui.strings", ["gone"])]⟩ :=
    ⟨by decide +kernel, by decide, _, Prod.ext surveyed rfl⟩
  have apart : Apart options ⟨[("app/ui.strings", ["gone"])]⟩ before.disk := by
    constructor
    · intro a aMem b bMem different
      rw [List.mem_singleton.mp aMem, List.mem_singleton.mp bMem] at different
      exact absurd rfl different
    · intro path asked entry mem
      rw [List.mem_singleton.mp mem, ← Option.some.inj asked]
      decide +kernel
  have changes := (disk_of_run ran).2 options {} _ reaches apart
  have untouched := changes.frame ["app", "main.m"]
    (fun path asked => Option.some.inj asked ▸ (by decide +kernel))
    (fun _ entry mem => List.mem_singleton.mp mem ▸ (by decide +kernel))
  exact ⟨_, ran, untouched, changes⟩

end StringAudit.CommandLine
