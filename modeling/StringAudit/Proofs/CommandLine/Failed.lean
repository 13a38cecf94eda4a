import StringAudit.Proofs.CommandLine.Run
import StringAudit.Proofs.Detection.Failing
import StringAudit.Proofs.Settings
import StringAudit.Yaml.Load

/-!
# Runs that fail

A run that ends in a failure fails in one of three ways: its settings are refused, the number of its
workers is not positive, or its detection fails.  Each of them comes before everything that changes the
disk or reports findings.  So the disk stays as it is, and all that was written is the progress up to
the failure and one line on the failure.
-/

namespace StringAudit.CommandLine

/-- The settings and the number of workers that a run with options adopts. -/
structure Adopts [Yaml.Loader] (options : Options) (disk : Disk) (settings : Settings)
    (workers : Option Int) : Prop where
  settings_eq : (CommandLine.settings options).seen disk = .ok settings
  workers_eq : CommandLine.workers options settings = .ok workers

/-- Why a run with options fails on a disk, the character set of the line on the failure, and the
lines on the progress that come before it. -/
inductive Fails [Yaml.Loader] (options : Options) (disk : Disk) : String → Failure → List String → Prop
  | settings {failure : Failure} (refused : (settings options).seen disk = .error failure) :
      Fails options disk Settings.usualCharset failure []
  | workers {settings : Settings} {workers : Option Int} (adopts : Adopts options disk settings workers)
      (few : workers.any (· < 1) = true) :
      Fails options disk settings.charset workersNotPositive []
  | detection {settings : Settings} {workers : Option Int} {failure : Failure} {told : List String}
      (adopts : Adopts options disk settings workers) (enough : workers.any (· < 1) = false)
      (fails : (audit options settings workers).Fails options.roots options.storyboards disk failure
        told) :
      Fails options disk settings.charset failure (if options.quiet then [] else banner :: told)

/-- All lines on the progress of a search with a number of resource files. -/
def progressLines (options : Options) (count : Nat) : List String :=
  if options.quiet then [] else [banner, Audit.corpusLine, Audit.scanLine count]

theorem ascii_banner : Charset.Ascii banner.toList := by
  decide +kernel

/-- Before a failure there is nothing but progress. -/
theorem Fails.told_isPrefix [Yaml.Loader] {options : Options} {disk : Disk} {charset : String}
    {failure : Failure} {told : List String} (fails : Fails options disk charset failure told) :
    ∃ count, told <+: progressLines options count := by
  cases fails with
  | settings => exact ⟨0, List.nil_prefix⟩
  | workers => exact ⟨0, List.nil_prefix⟩
  | detection adopts enough fails =>
      simp only [progressLines]
      cases options.quiet with
      | true => exact ⟨0, List.nil_prefix⟩
      | false =>
          cases fails with
          | sources => exact ⟨0, [Audit.scanLine 0], rfl⟩
          | resources => exact ⟨0, [Audit.scanLine 0], rfl⟩
          | scan => exact ⟨_, List.prefix_rfl⟩

/-- A run fails by a line on the failure, unless the failure is one that is not reported. -/
theorem reports_of_fail {charset : String} {failure : Failure} {before after : RunState} {exit : Exit}
    (failed : (fail (Writer.err charset) failure).perform before = (.ok exit, after)) :
    exit = .failure ∧ ¬ failure.Unreported ∧ after.disk = before.disk ∧
      before.console.Reports charset ("error: " ++ failure.report) after.console := by
  cases failure
  case breakdown => cases failed
  case unreportable => cases failed
  all_goals
    obtain ⟨_, between, wrote, returned⟩ := Action.perform_bind_eq_ok_iff.mp failed
    cases returned
    exact ⟨rfl, id, Writer.reports_of_putLine wrote⟩

theorem perform_settings [Codecs] [Yaml.Loader] (options : Options) (state : RunState) :
    (settings options).perform state = ((settings options).seen state.disk, state) := by
  rw [Action.seen, settings, Action.perform_bind, Action.perform_bind]
  simp only [Action.perform_ofResult]
  cases options.config.get? with
  | error failure => rfl
  | ok path => simp only [Action.perform_ask]

theorem checked_of_settings [Yaml.Loader] {options : Options} {disk : Disk} {adopted : Settings}
    (loaded : (settings options).seen disk = .ok adopted) : adopted.Checked := by
  have performed : (settings options).perform { disk } = (.ok adopted, { disk }) := by
    rw [perform_settings, loaded]
  obtain ⟨path, _, pathEq, loading⟩ := Action.perform_bind_eq_ok_iff.mp performed
  rw [Action.perform_ask, Prod.mk.injEq] at loading
  exact Settings.checked_of_load loading.1

/-- A run with options has failed: the disk is as it was, and the progress and the line on the failure
are all that was written. -/
def HasFailed [Yaml.Loader] (options : Options) (before after : RunState) : Prop :=
  after.disk = before.disk ∧
    ∃ charset failure told console, Fails options before.disk charset failure told ∧
      Console.Tells charset .out told before.console console ∧
      console.Reports charset ("error: " ++ failure.report) after.console

/-- A search that does not succeed. -/
theorem fails_of_search [Yaml.Loader] {stamp : Report.Stamp} {options : Options} {settings : Settings}
    {workers : Option Int} {before after : RunState} {exit : Exit}
    (adopts : Adopts options before.disk settings workers) (enough : workers.any (· < 1) = false)
    (ran : (search stamp options settings (audit options settings workers)).perform before =
      (.ok exit, after))
    (failed : exit ≠ .success) : exit = .failure ∧ HasFailed options before after := by
  rw [search] at ran
  obtain ⟨_, announced, announcedEq, ran⟩ := Action.perform_bind_eq_ok_iff.mp ran
  obtain ⟨outcome, searched, outcomeEq, ran⟩ := Action.perform_bind_eq_ok_iff.mp ran
  rcases detected : ((audit options settings workers).detect options.roots options.storyboards).perform
    announced with ⟨failure | found, state⟩
  · rw [Action.perform_outcome, detected] at outcomeEq
    cases outcomeEq
    obtain ⟨rfl, reported, sameDisk, reports⟩ := reports_of_fail ran
    have announcedDisk := ((Writer.looksOnly_announce _ _).frame announcedEq).1
    rcases Audit.fails_of_detect detected with unreported | ⟨told, fails, toldEq⟩
    · exact absurd unreported reported
    obtain ⟨c, means⟩ := (checked_of_settings adopts.settings_eq).exists_meaning
    have ascii : ∀ line ∈ banner :: told, Charset.Ascii line.toList :=
      List.forall_mem_cons.mpr ⟨ascii_banner, fails.ascii⟩
    have allTold : ((banner :: told).forM
        (Writer.announce (audit options settings workers).progress)).perform before = (.ok (), state) :=
      Action.perform_bind_eq_ok_iff.mpr ⟨(), announced, announcedEq, toldEq⟩
    obtain ⟨toldDisk, tells⟩ := Writer.tells_of_announce options.quiet means ascii allTold
    rw [announcedDisk] at fails
    exact ⟨rfl, sameDisk.trans toldDisk, _, _, _, _, .detection adopts enough fails, tells, reports⟩
  · rw [Action.perform_outcome, detected] at outcomeEq
    cases outcomeEq
    obtain ⟨_, _, _, returned⟩ := Action.perform_bind_eq_ok_iff.mp ran
    cases returned
    exact absurd rfl failed

/-- A run with options that does not succeed. -/
theorem fails_of_runOptions [Yaml.Loader] {stamp : Report.Stamp} {options : Options}
    {before after : RunState} {exit : Exit}
    (ran : (runOptions stamp options).perform before = (.ok exit, after))
    (failed : exit ≠ .success) : exit = .failure ∧ HasFailed options before after := by
  rw [runOptions] at ran
  obtain ⟨outcome, _, loadedEq, ran⟩ := Action.perform_bind_eq_ok_iff.mp ran
  rw [Action.perform_outcome, perform_settings] at loadedEq
  rcases loaded : (settings options).seen before.disk with refusal | settings
  · rw [loaded] at loadedEq
    cases loadedEq
    obtain ⟨rfl, -, sameDisk, reports⟩ := reports_of_fail ran
    exact ⟨rfl, sameDisk, _, _, [], _, .settings loaded, .nil _, reports⟩
  rw [loaded] at loadedEq
  cases loadedEq
  obtain ⟨workers, _, workersEq, ran⟩ := Action.perform_bind_eq_ok_iff.mp ran
  rw [Action.perform_ofResult, Prod.mk.injEq] at workersEq
  obtain ⟨workersEq, rfl⟩ := workersEq
  have adopts : Adopts options before.disk settings workers := ⟨loaded, workersEq⟩
  split at ran
  · rename_i few
    obtain ⟨rfl, -, sameDisk, reports⟩ := reports_of_fail ran
    exact ⟨rfl, sameDisk, _, _, [], _, .workers adopts few, .nil _, reports⟩
  · rename_i enough
    exact fails_of_search adopts (Bool.not_eq_true _ ▸ enough) ran failed

/-- A run that ends with the code 1 or 2 leaves the disk as it is.  If the code is 1, it has told its
progress on standard output, reported the failure in one line on standard error, and written nothing
else. -/
theorem disk_of_failed_run [Yaml.Loader] {stamp : Report.Stamp} {args : List String}
    {before after : RunState} {exit : Exit} (ran : (run stamp args).perform before = (.ok exit, after))
    (failed : exit.code = 1 ∨ exit.code = 2) :
    after.disk = before.disk ∧
      (exit.code = 1 → ∃ options charset failure told console count,
        request args = .accepted options ∧ Fails options before.disk charset failure told ∧
        told <+: progressLines options count ∧
        Console.Tells charset .out told before.console console ∧
        console.Reports charset ("error: " ++ failure.report) after.console) := by
  have unsuccessful : exit ≠ .success := by
    rintro rfl
    simp [Exit.code] at failed
  rw [run] at ran
  split at ran
  · obtain ⟨_, _, _, returned⟩ := Action.perform_bind_eq_ok_iff.mp ran
    cases returned
    exact absurd rfl unsuccessful
  · obtain ⟨_, between, printed, returned⟩ := Action.perform_bind_eq_ok_iff.mp ran
    cases returned
    exact ⟨((looksOnly_printTo _ _).frame printed).1, fun one => absurd one (by decide)⟩
  · rename_i options requested
    split at ran
    · obtain ⟨_, _, _, returned⟩ := Action.perform_bind_eq_ok_iff.mp ran
      cases returned
      exact absurd rfl unsuccessful
    · obtain ⟨-, sameDisk, charset, failure, told, console, fails, tells, reports⟩ :=
        fails_of_runOptions ran unsuccessful
      obtain ⟨count, isPrefix⟩ := fails.told_isPrefix
      exact ⟨sameDisk, fun _ => ⟨options, charset, failure, told, console, count, requested, fails,
        isPrefix, tells, reports⟩⟩

/-- A resource file without an abandoned identifier, and one with an identifier line that is not
closed. -/
def unclosedDisk : Disk where
  root := .folder "app"
    (.file "main.m" ⟨Charset.Utf8.encode "use(@\"kept\");".toList, 0o644⟩
      (.file "some.strings" ⟨Charset.Utf8.encode "\"kept\" = \"a\";".toList, 0o644⟩
        (.file "ui.strings" ⟨Charset.Utf8.encode "\"gone".toList, 0o644⟩ .empty)))
    .empty
  here := []

/-- On `unclosedDisk` a run in write mode ends with the code 1: it tells all of its progress, reports
the line, and says nothing of the clean file. -/
theorem disk_of_failed_run_unclosedDisk :
    ∃ after, (run ⟨"1", "2"⟩ ["app", "--write"]).perform { disk := unclosedDisk } =
        (.ok .failure, after) ∧
      after.disk = unclosedDisk ∧ ∃ charset, ∃ failure : Failure, ∃ told console,
        Console.Tells charset .out told {} console ∧
        console.Reports charset ("error: " ++ failure.report) after.console := by
  have failed : ((run ⟨"1", "2"⟩ ["app", "--write"]).perform { disk := unclosedDisk }).1 =
      .ok .failure := by
    decide +kernel
  have ran : (run ⟨"1", "2"⟩ ["app", "--write"]).perform { disk := unclosedDisk } =
      (.ok .failure, ((run ⟨"1", "2"⟩ ["app", "--write"]).perform { disk := unclosedDisk }).2) :=
    Prod.ext failed rfl
  obtain ⟨sameDisk, reported⟩ := disk_of_failed_run ran (Or.inl rfl)
  obtain ⟨_, charset, failure, told, console, _, _, _, _, tells, reports⟩ := reported rfl
  exact ⟨_, ran, sameDisk, charset, failure, told, console, tells, reports⟩

end StringAudit.CommandLine
