import StringAudit.Proofs.CommandLine.Returns
import StringAudit.Proofs.Detection.Exact
import StringAudit.Proofs.Growth

/-!
# Quiet runs

A run that is not quiet says what a quiet one says, and chatters before it: it tells its progress on
standard output and notes clean files on standard error.  Apart from that both runs are the same, whether
they succeed or fail.

A note on a clean file can only be lost where the character set lacks a character of its own name.  Then the
run ends there, and a quiet one goes on (`accentedDisk`).
-/

namespace StringAudit

namespace Cleanup

theorem uniform_cleanOne (cleanup : Cleanup) (result : Result) (entry : String × List String) :
    (cleanup.cleanOne result entry).Uniform := by
  refine .bind (Writer.uniform_announce _ _) fun _ => .bind (.outcome (.onDisk _)) fun outcome => ?_
  cases outcome with
  | ok _ => exact .pure _
  | error failure =>
      simp only
      split
      · exact .bind (Writer.uniform_announce _ _) fun _ => .pure _
      · exact .throw _

theorem uniform_apply (cleanup : Cleanup) (found : Findings) : (cleanup.apply found).Uniform :=
  .foldlM cleanup.uniform_cleanOne {}

end Cleanup

namespace Audit

variable {audit : Audit} {roots : List String} {storyboards : Bool}

/-- What a detection comes to does not depend on its writers and its workers. -/
theorem comesTo_congr (other : Audit) (ignored : audit.ignored = other.ignored)
    (allowed : audit.allowed = other.allowed) (roots : List String) (storyboards : Bool) (disk : Disk) :
    audit.comesTo roots storyboards disk = other.comesTo roots storyboards disk := by
  have scans : ∀ corpus paths, audit.scanFiles corpus disk paths = other.scanFiles corpus disk paths := by
    intro corpus paths
    rw [scanFiles_eq_mapM, scanFiles_eq_mapM]
    congr 1
    funext path
    rw [scanTask, scanTask, scanFile, scanFile, allowed]
  simp only [comesTo, sources, resources, ignored, scans]

theorem comesTo_of_scanned {disk : Disk} {corpus : String} {paths : List String}
    {scanned : List (String × List String)} (corpusEq : audit.corpus roots storyboards disk = .ok corpus)
    (pathsEq : audit.resources roots disk = .ok paths)
    (scannedEq : audit.scanFiles corpus disk paths = .ok scanned) :
    audit.comesTo roots storyboards disk = .ok (scanned.foldl Findings.tally {}) := by
  rw [comesTo_eq]
  refine Except.bind_eq_ok_iff.mpr ⟨corpus, corpusEq, Except.bind_eq_ok_iff.mpr ⟨paths, pathsEq, ?_⟩⟩
  rw [scannedEq]
  rfl

/-- A detection without writers comes to what the disk says, and leaves everything as it is. -/
theorem perform_detect_silently (progress : audit.progress = none) (notes : audit.notes = none)
    (possible : audit.workers.any (· < 1) = false) (roots : List String) (storyboards : Bool)
    (state : RunState) :
    (audit.detect roots storyboards).perform state =
      (audit.comesTo roots storyboards state.disk, state) := by
  have outcome : ((audit.detect roots storyboards).perform state).1 =
      audit.comesTo roots storyboards state.disk := by
    rw [(looksOnly_detect roots storyboards).perform_fst]
    exact seen_detect possible (by simp [progress]) (by simp [notes]) roots storyboards state.disk
  have same : ∀ after : RunState, after.disk = state.disk → after.console = state.console →
      after = state := by
    rintro ⟨_, _⟩ rfl rfl
    rfl
  rcases performed : (audit.detect roots storyboards).perform state with ⟨failure | found, after⟩
  · rw [performed] at outcome
    rcases stalls_or_fails_of_detect performed with (⟨_, _, writes, _⟩ | ⟨few, _⟩) | ⟨told, _, toldEq⟩
    · simp [progress, notes] at writes
    · exact absurd (possible.symm.trans few) Bool.false_ne_true
    · rw [progress] at toldEq
      obtain ⟨sameDisk, sameConsole⟩ := Writer.announced_of_perform toldEq
      exact Prod.ext outcome (same after sameDisk sameConsole)
  · rw [performed] at outcome
    obtain ⟨_, _, _, middle, -, -, -, told, taken⟩ := scanned_of_detect performed
    obtain ⟨middleDisk, toldEq⟩ := Writer.announced_of_perform told
    obtain ⟨afterDisk, notedEq⟩ := Writer.announced_of_perform (announced_of_foldlM_take taken).2
    rw [progress] at toldEq
    rw [notes] at notedEq
    exact Prod.ext outcome (same after (afterDisk.trans middleDisk) (Eq.trans notedEq toldEq))

end Audit

namespace CommandLine

/-- The same options, but quiet ones. -/
def Options.hushed (options : Options) : Options :=
  { options with quiet := true }

/-- The same options, but not quiet ones. -/
def Options.aloud (options : Options) : Options :=
  { options with quiet := false }

/-! ## What follows a detection -/

theorem uniform_fail (err : Writer) (failure : Failure) : (fail err failure).Uniform := by
  cases failure
  case breakdown => exact .throw _
  case unreportable => exact .throw _
  all_goals
    exact .bind (err.uniform_put _) fun _ => .pure _

theorem uniform_saving (stamp : Report.Stamp) (options : Options) (settings : Settings)
    (found : Findings) : (saving stamp options settings found).Uniform := by
  rw [saving]
  split
  · refine .bind (.outcome (.onDisk _)) fun outcome => ?_
    split
    · exact Writer.uniform_write _ _
    · exact .ofResult _
  · exact .pure ()

theorem uniform_conclude (stamp : Report.Stamp) (options : Options) (settings : Settings)
    (found : Findings) : (conclude stamp options settings found).Uniform := by
  rw [conclude_eq]
  refine .bind (.forM fun line => Writer.uniform_put _ (line ++ "\n")) fun _ => ?_
  refine .bind (uniform_saving stamp options settings found) fun _ => ?_
  rw [cleaning]
  split
  · exact .discard ((cleanup settings).uniform_apply found)
  · exact .pure ()

/-- The part of a search behind its detection. -/
def settle (stamp : Report.Stamp) (options : Options) (settings : Settings) :
    Except Failure Findings → Action Exit
  | .error failure => fail (Writer.err settings.charset) failure
  | .ok found => do
      conclude stamp options settings found
      pure .success

theorem search_eq (stamp : Report.Stamp) (options : Options) (settings : Settings) (audit : Audit) :
    search stamp options settings audit =
      Writer.announce audit.progress banner >>= fun _ =>
        (audit.detect options.roots options.storyboards).outcome >>= settle stamp options settings :=
  rfl

/-- A search goes on behind what its detection comes to. -/
theorem perform_search (stamp : Report.Stamp) {options : Options} {settings : Settings} {audit : Audit}
    {before announced after : RunState} {outcome : Except Failure Findings}
    (announcedEq : (Writer.announce audit.progress banner).perform before = (.ok (), announced))
    (detected : (audit.detect options.roots options.storyboards).perform announced = (outcome, after)) :
    (search stamp options settings audit).perform before =
      (settle stamp options settings outcome).perform after := by
  rw [search_eq, Action.perform_bind, announcedEq]
  simp only [Action.perform_outcome_bind, detected]

theorem uniform_settle (stamp : Report.Stamp) (options : Options) (settings : Settings)
    (outcome : Except Failure Findings) : (settle stamp options settings outcome).Uniform := by
  cases outcome with
  | error failure => exact uniform_fail _ failure
  | ok found => exact .bind (uniform_conclude stamp options settings found) fun _ => .pure _

/-! ## Chatter -/

/-- What a run says before its report unless it is quiet: the character set, the lines on its progress,
which go to standard output, and the lines on clean files, which go to standard error. -/
inductive Chatter [Yaml.Loader] (options : Options) (disk : Disk) :
    String → List String → List String → Prop
  /-- The number of workers is set to nothing, so that the run ends before it searches. -/
  | emptied (charset : String) (nothing : options.workers = .emptied) :
      Chatter options disk charset [] []
  /-- The run fails before it has scanned all files. -/
  | failed {charset : String} {failure : Failure} {told : List String}
      (fails : Fails options disk charset failure told) : Chatter options disk charset told []
  /-- The run has scanned all files: it notes those in which nothing was found. -/
  | scanned {adopted : Settings} {workers : Option Int} {corpus : String} {paths : List String}
      {scanned : List (String × List String)} (adopts : Adopts options disk adopted workers)
      (corpusEq : (audit options adopted workers).corpus options.roots options.storyboards disk =
        .ok corpus)
      (pathsEq : (audit options adopted workers).resources options.roots disk = .ok paths)
      (scannedEq : (audit options adopted workers).scanFiles corpus disk paths = .ok scanned) :
      Chatter options disk adopted.charset [banner, Audit.corpusLine, Audit.scanLine paths.length]
        ((scanned.filter fun item => item.2 = []).map fun item => Audit.cleanLine item.1)

/-- One console comes from another by the chatter of a run. -/
def Chatters [Yaml.Loader] (options : Options) (disk : Disk) (earlier later : Console) : Prop :=
  ∃ charset told clean between, Chatter options disk charset told clean ∧
    Console.Tells charset .out told earlier between ∧ (Writer.err charset).Delivers clean between later

/-- A run does what a quiet one does, and chatters before it. -/
def ChattersBefore [Yaml.Loader] (options : Options) (before : RunState)
    (run quiet : Except Failure Exit × RunState) : Prop :=
  ∃ chatted, Chatters options before.disk before.console chatted ∧
    Action.EndsAlike run quiet chatted before.console

/-- A run ends because a line is lost, and leaves the disk as it was. -/
def EndsLost (charset : String) (before : RunState) (run : Except Failure Exit × RunState) : Prop :=
  ∃ failure, Lost charset failure ∧ run.1 = .error failure ∧ run.2.disk = before.disk

section Search

variable {options : Options} {before : RunState} {adopted : Settings} {workers : Option Int}

/-- What the writers of an audit that is not quiet are. -/
theorem writers_of_loud (loud : options.quiet = false) (adopted : Settings) (workers : Option Int) :
    (audit options adopted workers).progress = some (Writer.out adopted.charset) ∧
      (audit options adopted workers).notes = some (Writer.err adopted.charset) := by
  simp [audit, loud]

/-- The banner is told before all other lines on the progress. -/
theorem tells_banner {charset : String} {c : Charset} (means : Charset.meaning charset = .charset c)
    {told : List String} (ascii : ∀ line ∈ told, Charset.Ascii line.toList) {announced state : RunState}
    (announcedEq : (Writer.announce (some (Writer.out charset)) banner).perform before =
      (.ok (), announced))
    (toldEq : (told.forM (Writer.announce (some (Writer.out charset)))).perform announced =
      (.ok (), state)) :
    Console.Tells charset .out (banner :: told) before.console state.console :=
  (Writer.tells_of_announce false means (List.forall_mem_cons.mpr ⟨ascii_banner, ascii⟩)
    (Action.perform_bind_eq_ok_iff.mpr ⟨(), announced, announcedEq, toldEq⟩)).2

/-- A search that is not quiet chatters up to the end of its detection, which comes to what the disk says,
or it loses a line. -/
theorem chatters_of_detect [Yaml.Loader] (adopts : Adopts options before.disk adopted workers)
    (enough : workers.any (· < 1) = false) (loud : options.quiet = false) {announced after : RunState}
    (announcedEq : (Writer.announce (some (Writer.out adopted.charset)) banner).perform before =
      (.ok (), announced)) {outcome : Except Failure Findings}
    (detected : ((audit options adopted workers).detect options.roots options.storyboards).perform
      announced = (outcome, after)) :
    (outcome = (audit options adopted workers).comesTo options.roots options.storyboards before.disk ∧
        Chatters options before.disk before.console after.console) ∨
      ∃ failure, outcome = .error failure ∧ Lost adopted.charset failure := by
  obtain ⟨c, means⟩ := (checked_of_settings adopts.settings_eq).exists_meaning
  obtain ⟨progress, notes⟩ := writers_of_loud loud adopted workers
  have announcedDisk := ((Writer.looksOnly_announce _ _).frame announcedEq).1
  cases outcome with
  | error failure =>
      rcases Audit.stalls_or_fails_of_detect detected with
        (⟨w, text, writes, undelivered⟩ | ⟨few, _⟩) | ⟨told, fails, toldEq⟩
      · have own : adopted.charset = w.charset := by
          rw [progress, notes] at writes
          rcases writes with same | same <;> exact Option.some.inj same ▸ rfl
        rw [own] at means ⊢
        exact Or.inr ⟨failure, rfl, Writer.unreportable_of_sending means undelivered⟩
      · exact absurd (enough.symm.trans few) Bool.false_ne_true
      · rw [announcedDisk] at fails
        have failed : Fails options before.disk adopted.charset failure (banner :: told) := by
          have detection := Fails.detection adopts enough fails
          rwa [loud] at detection
        rw [progress] at toldEq
        exact Or.inl ⟨(comesTo_of_fails fails).symm, _, _, [], after.console, .failed failed,
          tells_banner means fails.ascii announcedEq toldEq, .nil _⟩
  | ok found =>
      obtain ⟨corpus, paths, scanned, middle, corpusEq, pathsEq, scannedEq, toldEq, taken⟩ :=
        Audit.scanned_of_detect detected
      obtain ⟨rfl, noted⟩ := Audit.announced_of_foldlM_take taken
      rw [announcedDisk] at corpusEq pathsEq scannedEq
      rw [progress] at toldEq
      rw [notes] at noted
      have ascii : ∀ line ∈ [Audit.corpusLine, Audit.scanLine paths.length],
          Charset.Ascii line.toList :=
        List.forall_mem_cons.mpr
          ⟨Audit.ascii_corpusLine, List.forall_mem_singleton.mpr (Audit.ascii_scanLine _)⟩
      exact Or.inl ⟨(Audit.comesTo_of_scanned corpusEq pathsEq scannedEq).symm, _, _, _, middle.console,
        .scanned adopts corpusEq pathsEq scannedEq, tells_banner means ascii announcedEq toldEq,
        (Writer.announced_of_perform noted).2⟩

/-- A search that is not quiet chatters before what a quiet one does, or it ends because a line is
lost. -/
theorem chattersBefore_of_search [Yaml.Loader] (stamp : Report.Stamp)
    (adopts : Adopts options before.disk adopted workers) (enough : workers.any (· < 1) = false) :
    let run := (search stamp options.aloud adopted (audit options.aloud adopted workers)).perform before
    let quiet := (search stamp options.hushed adopted (audit options.hushed adopted workers)).perform before
    ChattersBefore options.aloud before run quiet ∨ EndsLost adopted.charset before run := by
  intro run quiet
  obtain ⟨c, means⟩ := (checked_of_settings adopts.settings_eq).exists_meaning
  obtain ⟨bytes, -, announcedEq⟩ := Writer.perform_announce_of_ascii .out .err means ascii_banner before
  have quietEq : quiet = _ := perform_search stamp rfl
    (Audit.perform_detect_silently rfl rfl enough options.roots options.storyboards before)
  rcases detected : ((audit options.aloud adopted workers).detect options.roots
    options.storyboards).perform { before with console := before.console.send .out bytes }
    with ⟨outcome, after⟩
  have runEq : run = (settle stamp options.aloud adopted outcome).perform after :=
    perform_search stamp announcedEq detected
  have sameDisk : after.disk = before.disk := ((Audit.looksOnly_detect _ _).frame detected).1
  rw [runEq, quietEq]
  have adoptsAloud : Adopts options.aloud before.disk adopted workers :=
    ⟨adopts.settings_eq, adopts.workers_eq⟩
  rcases chatters_of_detect adoptsAloud enough rfl announcedEq detected with
    ⟨rfl, chatters⟩ | ⟨failure, rfl, lost⟩
  · have comesTo : (audit options.aloud adopted workers).comesTo options.aloud.roots
        options.aloud.storyboards before.disk =
          (audit options.hushed adopted workers).comesTo options.roots options.storyboards before.disk :=
      (audit options.aloud adopted workers).comesTo_congr (audit options.hushed adopted workers) rfl rfl
        options.roots options.storyboards before.disk
    obtain ⟨disk, console⟩ := after
    obtain rfl : disk = before.disk := sameDisk
    refine Or.inl ⟨console, chatters, ?_⟩
    rw [comesTo]
    -- What follows the detection is the same in both runs.
    exact (uniform_settle stamp options.aloud adopted _).endsAlike before.disk console before.console
  · obtain ⟨unsound, text, rfl⟩ := lost
    exact Or.inr ⟨_, ⟨unsound, text, rfl⟩, rfl, sameDisk⟩

end Search

/-! ## The whole run -/

section Run

variable {options : Options} {before : RunState} {run quiet : Except Failure Exit × RunState}

/-- Two runs that do the same action without a word before it. -/
theorem chattersBefore_of_same [Yaml.Loader] {charset : String} {action : Action Exit}
    (uniform : action.Uniform) (silent : Chatter options before.disk charset [] [])
    (runEq : run = action.perform before) (quietEq : quiet = action.perform before) :
    ChattersBefore options before run quiet := by
  refine ⟨before.console, ⟨charset, [], [], before.console, silent, .nil _, .nil _⟩, ?_⟩
  rw [runEq, quietEq]
  exact uniform.endsAlike before.disk before.console before.console

/-- On streams with nothing written, what a quiet run writes stands at the end of what the other writes.
-/
theorem ChattersBefore.isSuffix [Yaml.Loader] (chatters : ChattersBefore options before run quiet)
    (nothing : ∀ outlet, before.console.written outlet = []) (outlet : Outlet) :
    quiet.2.console.written outlet <:+ run.2.console.written outlet := by
  obtain ⟨chatted, -, -, -, added, runGrows, quietGrows⟩ := chatters
  rw [quietGrows.written_eq nothing, runGrows outlet]
  exact List.suffix_append _ _

/-- A run that has adopted its settings and a number of workers goes on if there are enough of them. -/
theorem perform_runOptions_of_adopts [Yaml.Loader] (stamp : Report.Stamp) {adopted : Settings}
    {workers : Option Int} (adopts : Adopts options before.disk adopted workers) :
    (runOptions stamp options).perform before =
      (if workers.any (· < 1) then fail (Writer.err adopted.charset) workersNotPositive
        else search stamp options adopted (audit options adopted workers)).perform before := by
  rw [runOptions, Action.perform_outcome_bind, perform_settings, adopts.settings_eq]
  simp only [adopts.workers_eq]
  rfl

/-- A run that is not quiet chatters before what the quiet one does, or a line of it is lost. -/
theorem chattersBefore_or_endsLost [Yaml.Loader] (stamp : Report.Stamp) (options : Options)
    (before : RunState) :
    let run := (runOptions stamp options.aloud).perform before
    let quiet := (runOptions stamp options.hushed).perform before
    ChattersBefore options.aloud before run quiet ∨
      ∃ adopted, (settings options).seen before.disk = .ok adopted ∧ EndsLost adopted.charset before run := by
  intro run quiet
  rcases loaded : (settings options).seen before.disk with failure | adopted
  · exact Or.inl (chattersBefore_of_same (uniform_fail _ failure) (.failed (.settings loaded))
      (perform_runOptions_of_unset stamp loaded) (perform_runOptions_of_unset stamp loaded))
  rcases workersEq : CommandLine.workers options adopted with cause | workers
  · have nothing : options.workers = .emptied := by
      cases given : options.workers with
      | emptied => rfl
      | _ =>
          rw [CommandLine.workers, given] at workersEq
          cases workersEq
    exact Or.inl (chattersBefore_of_same (.throw (.breakdown .optionEmptied))
      (.emptied adopted.charset nothing) (perform_runOptions_of_emptied stamp loaded nothing)
      (perform_runOptions_of_emptied stamp loaded nothing))
  have aloudAdopts : Adopts options.aloud before.disk adopted workers := ⟨loaded, workersEq⟩
  have hushedAdopts : Adopts options.hushed before.disk adopted workers := ⟨loaded, workersEq⟩
  have runEq : run = _ := perform_runOptions_of_adopts stamp aloudAdopts
  have quietEq : quiet = _ := perform_runOptions_of_adopts stamp hushedAdopts
  cases few : workers.any (· < 1) with
  | true =>
      rw [if_pos few] at runEq quietEq
      exact Or.inl (chattersBefore_of_same (uniform_fail _ _) (.failed (.workers aloudAdopts few)) runEq
        quietEq)
  | false =>
      have enough : ¬ workers.any (· < 1) = true := Bool.not_eq_true _ ▸ few
      rw [if_neg enough] at runEq quietEq
      rw [runEq, quietEq]
      exact (chattersBefore_of_search stamp ⟨loaded, workersEq⟩ few).imp_right fun lost =>
        ⟨adopted, rfl, lost⟩

/-- A run does what the quiet one does, and chatters before it, or it ends because a line of it is lost.
None is where the character set has the characters of its own name, as it has those of every name in ASCII:
then both end alike and leave the same disk, and what the quiet one writes on a stream is the end of what the
other writes there. -/
theorem quiet_drops_only_chatter [Yaml.Loader] (stamp : Report.Stamp) (options : Options)
    (before : RunState) :
    let run := (runOptions stamp options.aloud).perform before
    let quiet := (runOptions stamp options.hushed).perform before
    (ChattersBefore options.aloud before run quiet ∨
        ∃ adopted, (settings options).seen before.disk = .ok adopted ∧
          EndsLost adopted.charset before run) ∧
      ((∀ adopted, (settings options).seen before.disk = .ok adopted →
          (Writer.err adopted.charset).Sound) →
        ChattersBefore options.aloud before run quiet ∧ run.1 = quiet.1 ∧ run.2.disk = quiet.2.disk ∧
          ((∀ outlet, before.console.written outlet = []) →
            ∀ outlet, quiet.2.console.written outlet <:+ run.2.console.written outlet)) := by
  intro run quiet
  refine ⟨chattersBefore_or_endsLost stamp options before, fun sound => ?_⟩
  have chatters : ChattersBefore options.aloud before run quiet := by
    rcases chattersBefore_or_endsLost stamp options before with
      chatters | ⟨adopted, loaded, _, ⟨unsound, -⟩, -⟩
    · exact chatters
    · exact absurd (sound adopted loaded) unsound
  have ⟨_, _, sameExit, sameDisk, _⟩ := chatters
  exact ⟨chatters, sameExit, sameDisk, chatters.isSuffix⟩

/-- A folder with a resource file in which nothing is abandoned, and one in which something is. -/
def halfCleanDisk : Disk where
  root := .folder "app"
    (.file "a.swift" ⟨Charset.Utf8.encode "\"used\"".toList, 0o644⟩
      (.file "a.strings" ⟨Charset.Utf8.encode "\"used\" = \"1\";".toList, 0o644⟩
        (.file "b.strings" ⟨Charset.Utf8.encode "\"left\" = \"1\";".toList, 0o644⟩ .empty)))
    .empty
  here := []

/-- A run that cleans `halfCleanDisk` leaves the disk that a quiet one does, and ends its output with that
of the quiet one; on standard error it has more to say. -/
theorem quiet_drops_only_chatter_halfCleanDisk :
    let options : Options := { roots := ["app"], write := true }
    let run := (runOptions ⟨"1", "2"⟩ options.aloud).perform { disk := halfCleanDisk }
    let quiet := (runOptions ⟨"1", "2"⟩ options.hushed).perform { disk := halfCleanDisk }
    run.2.disk = quiet.2.disk ∧
      (∀ outlet, quiet.2.console.written outlet <:+ run.2.console.written outlet) ∧
      run.2.console.written .err ≠ [] := by
  intro options run quiet
  have loaded : (settings options).seen halfCleanDisk = .ok {} := by decide +kernel
  have means : Charset.meaning "utf-8" = .charset (.utf8 false) := Charset.meaning_utf8
  have sound : (Writer.err "utf-8").Sound := .of_ascii means (by decide +kernel)
  obtain ⟨-, -, sameDisk, suffixes⟩ :=
    (quiet_drops_only_chatter ⟨"1", "2"⟩ options { disk := halfCleanDisk }).2 fun adopted same => by
      cases loaded.symm.trans same
      exact sound
  refine ⟨sameDisk, suffixes fun outlet => ?_, ?_⟩
  · cases outlet <;> rfl
  · decide +kernel

/-- A folder with a resource file in which nothing is abandoned, whose name is not in ASCII, and settings
whose character set lacks its own name. -/
def accentedDisk : Disk where
  root := .file Settings.usualName ⟨Charset.Utf8.encode "encoding: ascii\u00E9".toList, 0o644⟩
    (.folder "app"
      (.file "a.swift" ⟨Charset.Utf8.encode "\"used\"".toList, 0o644⟩
        (.file "caf\u00E9.strings" ⟨Charset.Utf8.encode "\"used\" = \"1\";".toList, 0o644⟩ .empty))
      .empty)
  here := []

/-- On `accentedDisk` the note on the clean file is lost, which ends the run, and a quiet run succeeds. -/
theorem quiet_succeeds_accentedDisk :
    let options : Options := { roots := ["app"] }
    let run := (runOptions ⟨"1", "2"⟩ options.aloud).perform { disk := accentedDisk }
    let quiet := (runOptions ⟨"1", "2"⟩ options.hushed).perform { disk := accentedDisk }
    (settings options).seen accentedDisk = .ok { charset := "ascii\u00E9" } ∧
      quiet.1 = .ok .success ∧ ∀ exit, run.1 ≠ .ok exit := by
  intro options run quiet
  have failed : run.1.isOk = false := by decide +kernel
  refine ⟨by decide +kernel, by decide +kernel, fun exit returned => ?_⟩
  rw [returned] at failed
  cases failed

end Run

end CommandLine

end StringAudit
