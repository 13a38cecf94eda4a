import StringAudit.Proofs.Cleanup.Attempt
import StringAudit.Proofs.CommandLine.Arguments
import StringAudit.Proofs.CommandLine.Refused
import StringAudit.Proofs.Detection.Stops

/-!
# What escapes a run

Once its settings are accepted or refused, a run ends with the code 0 or 1.  Whatever goes wrong on the
disk is reported on the way, and so is every text that the character set lacks: its diagnostic is in ASCII
but for the name of the character set.

Two failures escape all the same.  A number of workers that was set to nothing cannot be compared, and a
name of the character set that the character set itself lacks cannot stand in a diagnostic.
-/

namespace StringAudit.CommandLine

/-- A text was lost, because not even the diagnostics of a character set can be written in it. -/
def Lost (charset : String) (failure : Failure) : Prop :=
  ¬ (Writer.err charset).Sound ∧ ∃ text, failure = .unreportable text

/-- What escapes a run whose settings are accepted: the number of workers was set to nothing, or a text
was lost. -/
inductive Escapes [Yaml.Loader] (options : Options) (disk : Disk) : Failure → Prop
  | emptied {adopted : Settings} (loaded : (settings options).seen disk = .ok adopted)
      (nothing : options.workers = .emptied) : Escapes options disk (.breakdown .optionEmptied)
  | lost {adopted : Settings} {failure : Failure}
      (loaded : (settings options).seen disk = .ok adopted) (lost : Lost adopted.charset failure) :
      Escapes options disk failure

section Lost

variable {charset : String} {c : Charset} {failure : Failure} {before after : RunState}

theorem lost_of_announce (means : Charset.meaning charset = .charset c) {writer : Option Writer}
    {line : String} (own : ∀ w, writer = some w → w.charset = charset)
    (failed : (Writer.announce writer line).perform before = (.error failure, after)) :
    Lost charset failure := by
  obtain ⟨w, text, writerEq, undelivered⟩ := Writer.undelivered_of_announce failed
  obtain rfl := own w writerEq
  exact Writer.unreportable_of_sending means undelivered

theorem lost_of_putLine (means : Charset.meaning charset = .charset c) {w : Writer} {line : WideText}
    (own : w.charset = charset) (failed : (w.putLine line).perform before = (.error failure, after)) :
    Lost charset failure := by
  rw [Writer.putLine, Writer.perform_put] at failed
  split at failed
  · cases failed
  · rename_i unsent
    cases failed
    subst own
    exact Writer.unreportable_of_sending means unsent

theorem lost_of_writeLine (means : Charset.meaning charset = .charset c) {w : Writer} {line : String}
    (own : w.charset = charset) (failed : (w.writeLine line).perform before = (.error failure, after)) :
    Lost charset failure := by
  have put : (w.putLine line).perform before = (.error failure, after) := failed
  exact lost_of_putLine means own put

/-- Reporting a failure only fails by losing its line. -/
theorem lost_of_fail (means : Charset.meaning charset = .charset c) {reported : Failure}
    (kind : ¬ reported.Unreported)
    (failed : (fail (Writer.err charset) reported).perform before = (.error failure, after)) :
    Lost charset failure := by
  cases reported
  case breakdown => exact absurd trivial kind
  case unreportable => exact absurd trivial kind
  all_goals
    rcases Action.perform_bind_eq_error_iff.mp failed with failed | ⟨_, _, _, returned⟩
    · exact lost_of_putLine means rfl failed
    · cases returned

/-! ## Detection -/

theorem comesTo_of_fails {audit : Audit} {roots : List String} {storyboards : Bool} {disk : Disk}
    {told : List String} (fails : audit.Fails roots storyboards disk failure told) :
    audit.comesTo roots storyboards disk = .error failure := by
  simp only [Audit.comesTo_eq, Except.bind_eq_error_iff]
  cases fails with
  | sources missing => exact Or.inl missing
  | resources corpusEq missing => exact Or.inr ⟨_, corpusEq, Or.inl missing⟩
  | scan corpusEq pathsEq missing =>
      exact Or.inr ⟨_, corpusEq, Or.inr ⟨_, pathsEq, Or.inl missing⟩⟩

/-- A detection fails by a failure that is reported, or by losing a line. -/
theorem lost_or_reported_of_detect (means : Charset.meaning charset = .charset c) {audit : Audit}
    (own : ∀ w, audit.progress = some w ∨ audit.notes = some w → w.charset = charset)
    (enough : audit.workers.any (· < 1) = false) {roots : List String} {storyboards : Bool}
    (legible : Collection.Legible before.disk.root)
    (failed : (audit.detect roots storyboards).perform before = (.error failure, after)) :
    Lost charset failure ∨ ¬ failure.Unreported := by
  rcases Audit.stalls_or_fails_of_detect failed with (undelivered | ⟨few, _⟩) | ⟨told, fails, _⟩
  · obtain ⟨w, text, writerEq, undelivered⟩ := undelivered
    obtain rfl := own w writerEq
    exact Or.inl (Writer.unreportable_of_sending means undelivered)
  · rw [enough] at few
    cases few
  · exact Or.inr ((Audit.comesTo_eq_error_iff.mp (comesTo_of_fails fails)).reported legible)

/-! ## Conclusion -/

/-- Saving the document only fails by losing the line on it. -/
theorem lost_of_saving {stamp : Report.Stamp} {options : Options} {settings : Settings}
    {found : Findings} (means : Charset.meaning settings.charset = .charset c) (usable : options.Usable)
    (failed : (saving stamp options settings found).perform before = (.error failure, after)) :
    Lost settings.charset failure := by
  rw [saving] at failed
  split at failed
  · rename_i path asked
    have pathUsable : Disk.isUsable path = true := by
      rw [documentPath?] at asked
      split at asked
      · rename_i jsonEq
        split at asked
        · cases asked
        · exact Option.some.inj asked ▸ usable.json _ jsonEq
      · cases asked
    rw [saveDocument, Report.Document.save, Action.perform_outcome_bind, Action.perform_onDisk] at failed
    split at failed
    · exact lost_of_writeLine means rfl failed
    · -- A file that cannot be replaced is all that can go wrong, and that was reported.
      rename_i other
      rw [Action.perform_ofResult, Prod.mk.injEq] at failed
      have clean : '\x00' ∉ "utf-8".toList := by decide +kernel
      obtain ⟨reason, unwritable⟩ :=
        TextFile.reason_of_replace pathUsable clean (Prod.ext failed.1 rfl)
      exact absurd (failed.1.trans (congrArg _ unwritable)) (other path reason)
  · cases failed

/-- Cleaning a file only fails by losing a line, if its path can be used. -/
theorem lost_of_cleanOne (means : Charset.meaning charset = .charset c) {cleanup : Cleanup}
    (named : cleanup.charset = charset)
    (own : ∀ w, cleanup.progress = some w ∨ cleanup.alarms = some w → w.charset = charset)
    {result : Cleanup.Result} {entry : String × List String} (usable : Disk.isUsable entry.1 = true)
    (failed : (cleanup.cleanOne result entry).perform before = (.error failure, after)) :
    Lost charset failure := by
  have clean : '\x00' ∉ cleanup.charset.toList := Charset.usable_of_meaning (named ▸ means)
  rw [Cleanup.cleanOne] at failed
  rcases Action.perform_bind_eq_error_iff.mp failed with failed | ⟨_, told, _, failed⟩
  · exact lost_of_announce means (fun w same => own w (Or.inl same)) failed
  rw [Action.perform_outcome_bind, Action.perform_onDisk] at failed
  split at failed
  · cases failed
  · rename_i cause tried
    obtain ⟨reason, reasonEq⟩ := Cleanup.confined_of_cleanFile usable (fun _ _ => clean)
      (Prod.ext tried rfl)
    simp only [reasonEq] at failed
    rcases Action.perform_bind_eq_error_iff.mp failed with failed | ⟨_, _, _, returned⟩
    · exact lost_of_announce means (fun w same => own w (Or.inr same)) failed
    · cases returned

theorem lost_of_conclude {stamp : Report.Stamp} {options : Options} {settings : Settings}
    {found : Findings} (means : Charset.meaning settings.charset = .charset c) (usable : options.Usable)
    (readable : ∀ entry ∈ found.entries, Disk.isUsable entry.1 = true)
    (failed : (conclude stamp options settings found).perform before = (.error failure, after)) :
    Lost settings.charset failure := by
  rw [conclude_eq] at failed
  rcases Action.perform_bind_eq_error_iff.mp failed with failed | ⟨_, _, _, failed⟩
  · obtain ⟨line, _, between, failed⟩ := Action.exists_step_of_perform_forM_eq_error failed
    exact lost_of_putLine means rfl failed
  rcases Action.perform_bind_eq_error_iff.mp failed with failed | ⟨_, _, _, failed⟩
  · exact lost_of_saving means usable failed
  rw [cleaning] at failed
  split at failed
  · rw [Action.perform_discard_eq_error_iff] at failed
    obtain ⟨entry, mem, result, between, failed⟩ :=
      Action.exists_step_of_perform_foldlM_eq_error failed
    have entryMem : entry ∈ found.entries := found.perm_byPath.mem_iff.mp mem
    have own : ∀ w, (cleanup settings).progress = some w ∨ (cleanup settings).alarms = some w →
        w.charset = settings.charset := by
      intro w same
      rcases same with same | same <;> exact Option.some.inj same ▸ rfl
    exact lost_of_cleanOne means rfl own (readable entry entryMem) failed
  · cases failed

/-! ## The whole run -/

theorem lost_of_search {stamp : Report.Stamp} {options : Options} {settings : Settings}
    {workers : Option Int} (means : Charset.meaning settings.charset = .charset c)
    (usable : options.Usable) (legible : Collection.Legible before.disk.root)
    (enough : workers.any (· < 1) = false)
    (failed : (search stamp options settings (audit options settings workers)).perform before =
      (.error failure, after)) : Lost settings.charset failure := by
  have own : ∀ w, (audit options settings workers).progress = some w ∨
      (audit options settings workers).notes = some w → w.charset = settings.charset := by
    intro w same
    simp only [audit, Option.ite_none_left_eq_some, Option.some.injEq] at same
    rcases same with ⟨-, rfl⟩ | ⟨-, rfl⟩ <;> rfl
  rw [search] at failed
  rcases Action.perform_bind_eq_error_iff.mp failed with failed | ⟨_, announced, announcedEq, failed⟩
  · exact lost_of_announce means (fun w same => own w (Or.inl same)) failed
  have sameDisk := ((Writer.looksOnly_announce _ _).frame announcedEq).1
  rw [Action.perform_outcome_bind] at failed
  rcases detected : ((audit options settings workers).detect options.roots options.storyboards).perform
    announced with ⟨cause | found, state⟩
  all_goals
    rw [detected] at failed
  · -- A line that the detection lost is not reported but ends the run at once.
    rcases lost_or_reported_of_detect means own enough (sameDisk ▸ legible) detected with lost | reported
    · obtain ⟨unsound, text, rfl⟩ := lost
      cases failed
      exact ⟨unsound, text, rfl⟩
    · exact lost_of_fail means reported failed
  · obtain ⟨corpus, paths, finds⟩ := Audit.finds_of_perform_detect detected
    rcases Action.perform_bind_eq_error_iff.mp failed with failed | ⟨_, _, _, returned⟩
    · refine lost_of_conclude means usable (fun entry mem => ?_) failed
      obtain ⟨text, readEq⟩ := finds.readable mem
      obtain ⟨_, _, _, reads, _⟩ := TextFile.read_eq_ok_iff.mp readEq
      exact reads.usable
    · cases returned

end Lost

/-- Whatever escapes a run with accepted settings is one of the two failures. -/
theorem escapes_of_runOptions [Yaml.Loader] {stamp : Report.Stamp} {options : Options} {adopted : Settings}
    {failure : Failure} {before after : RunState} (usable : options.Usable)
    (legible : Collection.Legible before.disk.root)
    (loaded : (settings options).seen before.disk = .ok adopted)
    (failed : (runOptions stamp options).perform before = (.error failure, after)) :
    Escapes options before.disk failure := by
  obtain ⟨c, means⟩ := (checked_of_settings loaded).exists_meaning
  rw [runOptions, Action.perform_outcome_bind, perform_settings, loaded] at failed
  rcases Action.perform_bind_eq_error_iff.mp failed with failed | ⟨number, _, numberEq, failed⟩
  · rw [Action.perform_ofResult, Prod.mk.injEq, workers] at failed
    cases workersEq : options.workers with
    | emptied =>
        rw [workersEq] at failed
        cases failed.1
        exact .emptied loaded workersEq
    | _ =>
        rw [workersEq] at failed
        cases failed.1
  rw [Action.perform_ofResult, Prod.mk.injEq] at numberEq
  obtain ⟨-, rfl⟩ := numberEq
  split at failed
  · exact .lost loaded (lost_of_fail means id failed)
  · rename_i enough
    exact .lost loaded (lost_of_search means usable legible (Bool.not_eq_true _ ▸ enough) failed)

/-- A run with options ends with the code 0 or 1. -/
def Returns [Yaml.Loader] (stamp : Report.Stamp) (options : Options) (before : RunState) : Prop :=
  ∃ exit after, (runOptions stamp options).perform before = (.ok exit, after) ∧
    (exit.code = 0 ∨ exit.code = 1)

theorem returns_of_perform_eq_ok [Yaml.Loader] {stamp : Report.Stamp} {options : Options} {exit : Exit}
    {before after : RunState} (ran : (runOptions stamp options).perform before = (.ok exit, after)) :
    Returns stamp options before := by
  refine ⟨exit, after, ran, ?_⟩
  by_cases succeeded : exit = .success
  · exact Or.inl (succeeded ▸ rfl)
  · exact Or.inr ((fails_of_runOptions ran succeeded).1 ▸ rfl)

theorem perform_runOptions_of_emptied [Yaml.Loader] (stamp : Report.Stamp) {options : Options}
    {adopted : Settings} {before : RunState} (loaded : (settings options).seen before.disk = .ok adopted)
    (nothing : options.workers = .emptied) :
    (runOptions stamp options).perform before = (.error (.breakdown .optionEmptied), before) := by
  rw [runOptions, Action.perform_outcome_bind, perform_settings, loaded]
  refine Action.perform_bind_eq_error_iff.mpr (Or.inl ?_)
  rw [Action.perform_ofResult, workers, nothing]
  rfl

/-- Where settings are accepted or refused, a run ends with the code 0 or 1, or one of two failures
escapes it.  None does if the number of workers is not set to nothing and the name of the character set is
in ASCII; a number of workers that is set to nothing always does. -/
theorem returns_or_escapes [Yaml.Loader] {args : List String} {options : Options} {before : RunState}
    (stamp : Report.Stamp) (usable : ∀ arg ∈ args, '\x00' ∉ arg.toList)
    (requested : request args = .accepted options) (legible : Collection.Legible before.disk.root)
    (loads : (∃ adopted, (settings options).seen before.disk = .ok adopted) ∨
      ∃ r : Settings.Refusal, (settings options).seen before.disk = .error r.failure) :
    (Returns stamp options before ∨ ∃ failure after,
        (runOptions stamp options).perform before = (.error failure, after) ∧
          Escapes options before.disk failure) ∧
      (options.workers ≠ .emptied →
        (∀ adopted, (settings options).seen before.disk = .ok adopted →
          Charset.Ascii adopted.charset.toList) → Returns stamp options before) ∧
      ∀ adopted, (settings options).seen before.disk = .ok adopted → options.workers = .emptied →
        (runOptions stamp options).perform before = (.error (.breakdown .optionEmptied), before) := by
  have optionsUsable : options.Usable :=
    usable_of_request (fun arg mem => Collection.isUsable_iff.mpr (usable arg mem)) requested
  have outcome : Returns stamp options before ∨ ∃ failure after,
      (runOptions stamp options).perform before = (.error failure, after) ∧
        Escapes options before.disk failure := by
    rcases loads with ⟨adopted, loaded⟩ | ⟨r, refused⟩
    · rcases ran : (runOptions stamp options).perform before with ⟨failure | exit, after⟩
      · exact Or.inr ⟨failure, after, rfl, escapes_of_runOptions optionsUsable legible loaded ran⟩
      · exact Or.inl (returns_of_perform_eq_ok ran)
    · have reported := (perform_runOptions_of_unset stamp refused).trans (perform_fail_refusal r before)
      exact Or.inl (returns_of_perform_eq_ok reported)
  refine ⟨outcome, ?_, fun adopted loaded => perform_runOptions_of_emptied stamp loaded⟩
  intro given ascii
  rcases outcome with returns | ⟨failure, after, -, escapes⟩
  · exact returns
  cases escapes with
  | emptied loaded nothing => exact absurd nothing given
  | lost loaded lost =>
      obtain ⟨c, means⟩ := (checked_of_settings loaded).exists_meaning
      exact absurd (.of_ascii means (ascii _ loaded)) lost.1

/-- A folder with an abandoned identifier that is not in ASCII, and a settings file that names a character
set. -/
def namedDisk (charset : String) : Disk where
  root := .folder "app"
    (.file "ui.strings" ⟨Charset.Utf8.encode "\"café\" = \"1\";".toList, 0o644⟩ .empty)
    (.file Settings.usualName ⟨Charset.Utf8.encode ("encoding: " ++ charset).toList, 0o644⟩ .empty)
  here := []

/-- With the character set `ascii`, a run on `namedDisk` returns though it cannot print what it found. -/
theorem returns_or_escapes_namedDisk :
    Returns ⟨"1", "2"⟩ { roots := ["app"] } { disk := namedDisk "ascii" } := by
  have loaded : (settings { roots := ["app"] }).seen (namedDisk "ascii") = .ok { charset := "ascii" } := by
    decide +kernel
  have usable : ∀ arg ∈ ["app"], '\x00' ∉ arg.toList := by decide +kernel
  have requested : request ["app"] = .accepted { roots := ["app"] } := by decide +kernel
  have legible : Collection.Legible (namedDisk "ascii").root := by decide +kernel
  have settled := @returns_or_escapes _ ["app"] { roots := ["app"] } { disk := namedDisk "ascii" }
    ⟨"1", "2"⟩ usable requested legible (Or.inl ⟨_, loaded⟩)
  refine settled.2.1 (by decide) fun adopted same => ?_
  cases loaded.symm.trans same
  decide +kernel

theorem not_returns_of_isOk_eq_false [Yaml.Loader] {stamp : Report.Stamp} {options : Options}
    {before : RunState} (failed : ((runOptions stamp options).perform before).1.isOk = false) :
    ¬ Returns stamp options before := by
  rintro ⟨exit, after, ran, -⟩
  rw [ran] at failed
  cases failed

/-- A number of workers that was set to nothing escapes a run, and so does a text that is lost because the
name of the character set is not in ASCII. -/
theorem not_returns_namedDisk :
    let emptied : Options := { roots := ["app"], workers := .emptied }
    let plain : Options := { roots := ["app"] }
    let odd := "ascii\u00E9"
    (request ["app", "--workers=--"] = .accepted emptied ∧ Collection.Legible (namedDisk "ascii").root ∧
        (settings emptied).seen (namedDisk "ascii") = .ok { charset := "ascii" } ∧
        ¬ Returns ⟨"1", "2"⟩ emptied { disk := namedDisk "ascii" }) ∧
      request ["app"] = .accepted plain ∧ Collection.Legible (namedDisk odd).root ∧
        (settings plain).seen (namedDisk odd) = .ok { charset := odd } ∧
        ¬ Returns ⟨"1", "2"⟩ plain { disk := namedDisk odd } := by
  intro emptied plain odd
  refine ⟨⟨?_, ?_, ?_, not_returns_of_isOk_eq_false ?_⟩, ?_, ?_, ?_, not_returns_of_isOk_eq_false ?_⟩
  all_goals
    decide +kernel

end StringAudit.CommandLine
