import StringAudit.Proofs.CommandLine.Failed
import StringAudit.Proofs.Settings.Outcome

/-!
# Runs without settings

A run whose settings are refused says so in one line on standard error and ends with the code 1.  A run
that breaks down on its settings says nothing at all: the breakdown is left to whoever started the run.
This holds with any library for character sets and any one for YAML.
-/

namespace StringAudit.CommandLine

/-- What stands for a line where UTF-8 is written: the line itself, or its diagnostic if it is torn. -/
def usualLine : WideText → String
  | .sound line => line
  | .torn line => (Writer.err Settings.usualCharset).diagnostic (.torn line)

section Libraries

variable [Codecs]

/-- The usual character set has every text, and with it the diagnostic of every torn one. -/
theorem sending_usual (line : WideText) :
    (Writer.err Settings.usualCharset).sending line =
      .ok (.err, Charset.Utf8.encode (usualLine line).toList) := by
  have encodes := Codecs.encode_utf8
  cases line with
  | sound line =>
      rw [Writer.sending, Writer.err, Settings.usualCharset, encodes]
      rfl
  | torn line =>
      obtain ⟨reason, lost⟩ := Codecs.encode_utf8_torn line
      rw [Writer.sending, Writer.err, Settings.usualCharset, lost]
      simp only [encodes]
      rfl

/-- A refusal of settings is told in one line. -/
theorem perform_fail_refusal (r : Settings.Refusal) (state : RunState) :
    (fail (Writer.err Settings.usualCharset) r.failure).perform state = (.ok .failure,
      { state with
        console := state.console.send .err
          (Charset.Utf8.encode (usualLine ("error: " ++ r.message ++ "\n")).toList) }) := by
  refine Action.perform_bind_eq_ok_iff.mpr ⟨(), _, ?_, rfl⟩
  rw [Writer.putLine, Writer.perform_put, sending_usual]
  rfl

variable [Yaml.Loader]

/-- The settings of a run are those at the path that its options name. -/
theorem seen_settings {options : Options} {path : Option String} (named : options.config.get? = .ok path)
    (disk : Disk) : (settings options).seen disk = Settings.load path none disk := by
  rw [settings, named, (Action.LooksOnly.ofResult _).seen_bind fun _ => .ask _]
  exact Action.seen_ask _ _

/-- Without settings, a run ends with what becomes of their failure. -/
theorem perform_runOptions_of_unset {options : Options} {failure : Failure} {before : RunState}
    (stamp : Report.Stamp) (unset : (settings options).seen before.disk = .error failure) :
    (runOptions stamp options).perform before =
      (fail (Writer.err Settings.usualCharset) failure).perform before := by
  rw [runOptions, Action.perform_outcome_bind, perform_settings, unset]

theorem run_eq_runOptions {args : List String} {options : Options} (stamp : Report.Stamp)
    (requested : request args = .accepted options) (rooted : options.roots ≠ []) :
    run stamp args = runOptions stamp options := by
  rw [run, requested]
  exact if_neg rooted

/-- Loading settings accepts them, refuses them, or breaks down.  It breaks down exactly where `Breaks`
says so, and the checks on a value that was loaded exactly where `Unfit` says so.  A run whose settings
are refused reports that and ends with the code 1; a run that breaks down on them ends in the breakdown,
with nothing said. -/
theorem load_settles_or_breaks (path directory : Option String) (disk : Disk) :
    ((∃ settings, Settings.load path directory disk = .ok settings) ∨
        (∃ r : Settings.Refusal, Settings.load path directory disk = .error r.failure) ∨
        ∃ cause, Settings.load path directory disk = .error (.breakdown cause)) ∧
      (∀ cause, Settings.load path directory disk = .error (.breakdown cause) ↔
        Settings.Breaks path directory disk cause) ∧
      (∀ value, ((∃ settings, Settings.ofValue value = .ok settings) ∨
          (∃ r : Settings.Refusal, Settings.ofValue value = .error r.failure) ∨
          ∃ cause, Settings.ofValue value = .error (.breakdown cause)) ∧
        ∀ cause, Settings.ofValue value = .error (.breakdown cause) ↔ Settings.Unfit value cause) ∧
      ∀ stamp args options console, request args = .accepted options → options.roots ≠ [] →
        options.config.get? = .ok path →
        (∀ r : Settings.Refusal, Settings.load path none disk = .error r.failure →
          (run stamp args).perform ⟨disk, console⟩ = (.ok .failure, ⟨disk, console.send .err
            (Charset.Utf8.encode (usualLine ("error: " ++ r.message ++ "\n")).toList)⟩)) ∧
        ∀ cause, Settings.load path none disk = .error (.breakdown cause) →
          (run stamp args).perform ⟨disk, console⟩ = (.error (.breakdown cause), ⟨disk, console⟩) := by
  refine ⟨(Settings.load_settles path directory disk).cases, fun cause => Settings.load_eq_breakdown_iff,
    fun value => ⟨(Settings.ofValue_settles value).cases, fun cause => Settings.ofValue_eq_breakdown_iff⟩,
    ?_⟩
  intro stamp args options console requested rooted named
  rw [run_eq_runOptions stamp requested rooted]
  constructor
  · intro r refused
    rw [perform_runOptions_of_unset stamp ((seen_settings named disk).trans refused)]
    exact perform_fail_refusal r _
  · intro cause broken
    rw [perform_runOptions_of_unset stamp ((seen_settings named disk).trans broken)]
    rfl

end Libraries

/-- A folder with a settings file of some bytes. -/
def configuredDisk (bytes : List UInt8) : Disk where
  root := .folder "app" .empty (.file Settings.usualName ⟨bytes, 0o644⟩ .empty)
  here := []

/-- Settings that are no mapping are refused, and a run says so and ends with the code 1. -/
theorem load_settles_or_breaks_configuredDisk :
    let disk := configuredDisk (Charset.Utf8.encode "plain".toList)
    Settings.load none none disk = .error Settings.Refusal.notMapping.failure ∧
      (run ⟨"1", "2"⟩ ["app"]).perform ⟨disk, {}⟩ = (.ok .failure, ⟨disk, Console.send {} .err
        (Charset.Utf8.encode "error: configuration must be a mapping\n".toList)⟩) := by
  intro disk
  have refused : Settings.load none none disk = .error Settings.Refusal.notMapping.failure := by
    decide +kernel
  have line : usualLine ("error: " ++ Settings.Refusal.notMapping.message ++ "\n") =
      "error: configuration must be a mapping\n" := by
    decide +kernel
  have reported := ((load_settles_or_breaks none none disk).2.2.2 ⟨"1", "2"⟩ ["app"]
    { roots := ["app"] } {} (by decide +kernel) (by decide) rfl).1 _ refused
  rw [line] at reported
  exact ⟨refused, reported⟩

/-- What breaks down is neither accepted nor refused. -/
theorem not_settled_of_breakdown {result : Except Failure Settings} {cause : Breakdown}
    (broken : result = .error (.breakdown cause)) :
    ¬ ((∃ settings, result = .ok settings) ∨ ∃ r : Settings.Refusal, result = .error r.failure) := by
  rintro (⟨settings, accepted⟩ | ⟨r, refused⟩)
  · cases broken.symm.trans accepted
  · exact r.failure_ne _ (Except.error.inj (refused.symm.trans broken))

/-- A settings file that is not UTF-8 is neither accepted nor refused, and a run breaks down on it; so
does a mapping with a number for a key, and one that names the character set without texts. -/
theorem load_breaks_configuredDisk :
    let disk := configuredDisk [0xFF]
    ¬ ((∃ settings, Settings.load none none disk = .ok settings) ∨
        ∃ r : Settings.Refusal, Settings.load none none disk = .error r.failure) ∧
      (∀ exit, ((run ⟨"1", "2"⟩ ["app"]).perform { disk }).1 ≠ .ok exit) ∧
      ∀ entry ∈ [(Yaml.Value.int 1, Yaml.Value.null), (.text "encoding", .text "undefined")],
        ¬ ((∃ settings, Settings.ofValue (.mapping [entry]) = .ok settings) ∨
          ∃ r : Settings.Refusal, Settings.ofValue (.mapping [entry]) = .error r.failure) := by
  intro disk
  have broken : Settings.load none none disk =
      .error (.breakdown (.undecodable ⟨"utf-8", 0xFF, 0, 1, .invalidStart⟩)) := by
    decide +kernel
  have ran : ((run ⟨"1", "2"⟩ ["app"]).perform { disk }).1 =
      .error (.breakdown (.undecodable ⟨"utf-8", 0xFF, 0, 1, .invalidStart⟩)) := by
    decide +kernel
  have odd : Settings.ofValue (.mapping [(.int 1, .null)]) = .error (.breakdown .keyNotText) := by
    decide +kernel
  have textless : Settings.ofValue (.mapping [(.text "encoding", .text "undefined")]) =
      .error (.breakdown (.brokenCharset
        "encoding with 'undefined' codec failed (UnicodeError: undefined encoding)")) := by
    decide +kernel
  refine ⟨not_settled_of_breakdown broken, ?_, ?_⟩
  · intro exit returned
    cases ran.symm.trans returned
  · exact List.forall_mem_cons.mpr ⟨not_settled_of_breakdown odd,
      List.forall_mem_singleton.mpr (not_settled_of_breakdown textless)⟩

end StringAudit.CommandLine
