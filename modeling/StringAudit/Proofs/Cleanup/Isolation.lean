import StringAudit.Proofs.Cleanup.Attempt
import StringAudit.Proofs.Findings

/-!
# Every file for itself

Cleaning the files of findings comes to the same as cleaning each of them alone on the first disk, if no
two of their paths lead to one file.  The invariant of the loop compares every entry that is done with
that: the same files have been cleaned, with the same new contents, and nothing else has changed.
-/

namespace StringAudit

namespace Disk

/-- No two of some paths lead to one file. -/
def Apart (disk : Disk) (paths : List String) : Prop :=
  ∀ a ∈ paths, ∀ b ∈ paths, a ≠ b → ∀ links goal contents, disk.Leads (.parse a) links goal →
    disk.look goal = some (.file contents) → ∀ n, ¬ disk.Leads (.parse b) n goal

/-- Paths of files are apart if they lead to different places. -/
theorem Apart.of_resolve {disk : Disk} {paths : List String}
    (readable : ∀ path ∈ paths, (disk.readBytes (Path.tidy path)).isOk = true)
    (different : ∀ a ∈ paths, ∀ b ∈ paths, a ≠ b →
      disk.resolve (Path.tidy a) ≠ disk.resolve (Path.tidy b)) :
    disk.Apart paths := by
  have led : ∀ path ∈ paths, ∀ {links : Nat} {goal : Place}, disk.Leads (.parse path) links goal →
      disk.resolve (Path.tidy path) = .ok goal := by
    intro path mem links goal leads
    obtain ⟨bytes, bytesEq⟩ : ∃ bytes, disk.readBytes (Path.tidy path) = .ok bytes := by
      have ok := readable path mem
      cases bytesEq : disk.readBytes (Path.tidy path) with
      | ok bytes => exact ⟨bytes, rfl⟩
      | error fault => simp [bytesEq, Except.isOk, Except.toBool] at ok
    obtain ⟨place, contents, found, _⟩ := readBytes_eq_ok_iff.mp bytesEq
    obtain ⟨_, _, _, _, leadsThere, _⟩ := (entry_text_eq_file_iff (Path.parse_proper path)).mp found
    obtain ⟨_, rfl⟩ := leads.deterministic leadsThere
    exact (entry_eq_file_iff.mp found).1
  intro a aMem b bMem ne links goal contents leads _ n otherLeads
  exact different a aMem b bMem ne ((led a aMem leads).trans (led b bMem otherLeads).symm)

/-- A path leads where its entry leads. -/
theorem EntryLeads.exists_leads {disk : Disk} {path : String} {spot goal : Place} {n : Nat}
    (leads : disk.EntryLeads spot n goal) (spotEq : disk.entryPlace? path = some spot) :
    ∃ links, disk.Leads (.parse path) links goal := by
  obtain ⟨place, name, held, rfl⟩ := entryPlace?_eq_some_iff.mp spotEq
  obtain ⟨front, namesEq, _, _, ⟨m, _, along⟩, _⟩ := (holder_eq_ok_iff (Path.parse_proper path)).mp held
  obtain ⟨place', name', same, last⟩ := leads
  obtain ⟨rfl, nameEq⟩ := List.append_inj' same rfl
  obtain rfl := List.singleton_inj.mp nameEq
  refine ⟨m + n, ?_⟩
  rw [Leads, namesEq]
  exact along.append last

end Disk

namespace Cleanup

variable {charset : String} {first disk : Disk} {paths : List String}
  {entry other : String × List String}

/-! ## Files on their own -/

/-- Whether the file of an entry can be cleaned. -/
def succeeds (charset : String) (disk : Disk) (entry : String × List String) : Bool :=
  (cleanFile charset entry.1 entry.2 disk).1.isOk

theorem succeeds_eq_true_iff :
    succeeds charset disk entry = true ↔ (cleanFile charset entry.1 entry.2 disk).1 = .ok () := by
  rw [succeeds]
  cases (cleanFile charset entry.1 entry.2 disk).1 <;> simp [Except.isOk, Except.toBool]

theorem succeeds_eq_false_iff :
    succeeds charset disk entry = false ↔
      ∃ failure, (cleanFile charset entry.1 entry.2 disk).1 = .error failure := by
  rw [succeeds]
  cases (cleanFile charset entry.1 entry.2 disk).1 <;> simp [Except.isOk, Except.toBool]

/-- A file that can be cleaned is one that its path leads to through its entry. -/
theorem exists_led_of_succeeds (cleaned : succeeds charset first entry = true) {spot : Place}
    (spotEq : first.entryPlace? entry.1 = some spot) :
    ∃ links n goal contents, first.Leads (.parse entry.1) links goal ∧ first.EntryLeads spot n goal ∧
      first.look goal = some (.file contents) := by
  obtain ⟨text, place, name, _, readEq, replaces⟩ :=
    replaces_of_cleanFile (Prod.ext (succeeds_eq_true_iff.mp cleaned) rfl)
  obtain ⟨place', name', held, rfl⟩ := Disk.entryPlace?_eq_some_iff.mp spotEq
  obtain ⟨goal, shows⟩ := Disk.Shows.of_read readEq
  obtain ⟨n, entryLeads⟩ := shows.entryLeads held
  obtain ⟨links, contents, reads, _⟩ := shows
  exact ⟨links, n, goal, contents, reads.leads, entryLeads, reads.found⟩

/-- The entry of a file that can be cleaned is not that of another path. -/
theorem entryPlace?_ne (apart : first.Apart paths) (mem : entry.1 ∈ paths) (otherMem : other.1 ∈ paths)
    (different : entry.1 ≠ other.1) (cleaned : succeeds charset first entry = true) {spot : Place}
    (spotEq : first.entryPlace? entry.1 = some spot) : first.entryPlace? other.1 ≠ some spot := by
  intro same
  obtain ⟨links, n, goal, contents, leads, entryLeads, found⟩ := exists_led_of_succeeds cleaned spotEq
  obtain ⟨m, otherLeads⟩ := entryLeads.exists_leads same
  exact apart entry.1 mem other.1 otherMem different links goal contents leads found m otherLeads

/-! ## The loop -/

/-- The state in the middle of the loop, compared with the first disk: what became of each entry that is
done is what becomes of it alone there. -/
structure Piecewise (charset : String) (first : Disk) (done : List (String × List String))
    (spots : List Place) (result : Result) (disk : Disk) : Prop where
  overlays : disk.Overlays first spots
  owned : ∀ spot ∈ spots, ∃ entry ∈ done,
    succeeds charset first entry = true ∧ first.entryPlace? entry.1 = some spot
  written_eq : result.written = (done.filter fun entry => succeeds charset first entry).map Prod.fst
  failed_eq : result.failed.map Prod.fst =
    (done.filter fun entry => !succeeds charset first entry).map Prod.fst
  reasons : ∀ entry ∈ done, ∀ failure, (cleanFile charset entry.1 entry.2 first).1 = .error failure →
    Looped entry.1 failure ∨ (entry.1, failure.message) ∈ result.failed
  look_eq : ∀ entry ∈ done, ∀ spot, first.entryPlace? entry.1 = some spot →
    disk.look spot = (cleanFile charset entry.1 entry.2 first).2.look spot

namespace Piecewise

variable {done : List (String × List String)} {spots : List Place} {result : Result} {after : Disk}

/-- The new files stand where entries led to files. -/
theorem refiles (piecewise : Piecewise charset first done spots result disk) :
    disk.Refiles first spots where
  toOverlays := piecewise.overlays
  old := by
    intro spot mem
    obtain ⟨entry, _, cleaned, spotEq⟩ := piecewise.owned spot mem
    obtain ⟨_, n, goal, contents, _, entryLeads, found⟩ := exists_led_of_succeeds cleaned spotEq
    exact ⟨n, goal, entryLeads, by simp [found]⟩

variable (apart : first.Apart paths) (entryMem : entry.1 ∈ paths) (doneMem : ∀ a ∈ done, a.1 ∈ paths)
  (fresh : ∀ a ∈ done, a.1 ≠ entry.1)
include apart entryMem doneMem fresh

/-- The next path leads to none of the new files. -/
theorem elsewhere (piecewise : Piecewise charset first done spots result disk) :
    first.Elsewhere (.parse entry.1) spots := by
  intro spot mem
  obtain ⟨a, aMem, cleaned, spotEq⟩ := piecewise.owned spot mem
  obtain ⟨links, n, goal, contents, leads, entryLeads, found⟩ := exists_led_of_succeeds cleaned spotEq
  exact ⟨n, goal, contents, entryLeads, found, fun m =>
    apart a.1 (doneMem a aMem) entry.1 entryMem (fresh a aMem) links goal contents leads found m⟩

/-- The entry of the next path is none of the new files. -/
theorem notMem (piecewise : Piecewise charset first done spots result disk) {spot : Place}
    (spotEq : first.entryPlace? entry.1 = some spot) : spot ∉ spots := by
  intro mem
  obtain ⟨a, aMem, cleaned, same⟩ := piecewise.owned spot mem
  exact entryPlace?_ne apart (doneMem a aMem) entryMem (fresh a aMem) cleaned same spotEq

/-- The step of the loop that fails. -/
theorem failed (piecewise : Piecewise charset first done spots result disk) {failure now : Failure}
    (agrees : after.Agrees disk)
    (failedAlone : (cleanFile charset entry.1 entry.2 first).1 = .error failure)
    (reason : Looped entry.1 failure ∨ now = failure) :
    Piecewise charset first (done ++ [entry]) spots (result.with entry.1 (.error now)) after where
  overlays := agrees.overlays piecewise.overlays
  owned := by
    intro spot mem
    obtain ⟨a, aMem, cleaned⟩ := piecewise.owned spot mem
    exact ⟨a, List.mem_append_left _ aMem, cleaned⟩
  written_eq := by
    have fails := succeeds_eq_false_iff.mpr ⟨failure, failedAlone⟩
    simp [Result.with, piecewise.written_eq, List.filter_append, fails]
  failed_eq := by
    have fails := succeeds_eq_false_iff.mpr ⟨failure, failedAlone⟩
    simp [Result.with, piecewise.failed_eq, List.filter_append, fails]
  reasons := by
    intro a aMem other otherEq
    rcases List.mem_append.mp aMem with old | last
    · exact (piecewise.reasons a old other otherEq).imp_right (List.mem_append_left _)
    · obtain rfl := List.mem_singleton.mp last
      obtain rfl := Except.error.inj (failedAlone.symm.trans otherEq)
      rcases reason with looped | rfl
      · exact Or.inl looped
      · exact Or.inr (List.mem_append_right _ (List.mem_singleton_self _))
  look_eq := by
    intro a aMem spot spotEq
    rcases List.mem_append.mp aMem with old | last
    · rw [agrees.look_eq, piecewise.look_eq a old spot spotEq]
    · obtain rfl := List.mem_singleton.mp last
      have untouched := piecewise.notMem apart entryMem doneMem fresh spotEq
      have alone := agrees_of_cleanFile (Prod.ext failedAlone rfl)
      rw [agrees.look_eq, piecewise.overlays.look_eq spot untouched, alone.look_eq]

/-- The step of the loop that succeeds. -/
theorem cleaned (piecewise : Piecewise charset first done spots result disk)
    (cleanedAlone : (cleanFile charset entry.1 entry.2 first).1 = .ok ())
    (cleaned : cleanFile charset entry.1 entry.2 disk = (.ok (), after)) :
    ∃ spot, Piecewise charset first (done ++ [entry]) (spot :: spots) (result.with entry.1 (.ok ()))
      after := by
  have elsewhere := piecewise.elsewhere apart entryMem doneMem fresh
  obtain ⟨spot, contents, spotEq, alone, overwrites⟩ :=
    overwrites_elsewhere elsewhere piecewise.refiles (Prod.ext cleanedAlone rfl) cleaned
  have succeeded := succeeds_eq_true_iff.mpr cleanedAlone
  refine ⟨spot, ?_⟩
  constructor
  case overlays => exact overwrites.overlays piecewise.overlays
  case owned =>
    intro place mem
    rcases List.mem_cons.mp mem with rfl | old
    · exact ⟨entry, List.mem_append_right _ (List.mem_singleton_self _), succeeded, spotEq⟩
    · obtain ⟨a, aMem, owned⟩ := piecewise.owned place old
      exact ⟨a, List.mem_append_left _ aMem, owned⟩
  case written_eq => simp [Result.with, piecewise.written_eq, List.filter_append, succeeded]
  case failed_eq => simp [Result.with, piecewise.failed_eq, List.filter_append, succeeded]
  case reasons =>
    intro a aMem failure failureEq
    rcases List.mem_append.mp aMem with old | last
    · exact piecewise.reasons a old failure failureEq
    · obtain rfl := List.mem_singleton.mp last
      cases cleanedAlone.symm.trans failureEq
  case look_eq =>
    intro a aMem place placeEq
    rcases List.mem_append.mp aMem with old | last
    · have apartSpot : place ≠ spot := by
        rintro rfl
        exact entryPlace?_ne apart entryMem (doneMem a old) (fresh a old).symm succeeded spotEq placeEq
      rw [overwrites.look_of_ne apartSpot, piecewise.look_eq a old place placeEq]
    · obtain rfl := List.mem_singleton.mp last
      obtain rfl := Option.some.inj (spotEq.symm.trans placeEq)
      rw [overwrites.look_spot, alone.look_spot]

/-- The step of the loop. -/
theorem step (piecewise : Piecewise charset first done spots result disk)
    (usable : Disk.isUsable entry.1 = true) :
    ∃ more, Piecewise charset first (done ++ [entry]) more
      (result.with entry.1 (cleanFile charset entry.1 entry.2 disk).1)
      (cleanFile charset entry.1 entry.2 disk).2 := by
  have elsewhere := piecewise.elsewhere apart entryMem doneMem fresh
  rcases tried : cleanFile charset entry.1 entry.2 disk with ⟨outcome, after⟩
  have compared := cleanFile_elsewhere charset entry.2 elsewhere piecewise.refiles usable
  rw [tried] at compared
  cases outcome with
  | ok _ =>
      rcases compared with same | ⟨_, _, failed⟩
      · obtain ⟨spot, next⟩ := piecewise.cleaned apart entryMem doneMem fresh same.symm tried
        exact ⟨_, next⟩
      · cases failed
  | error now =>
      have agrees := agrees_of_cleanFile tried
      rcases compared with same | ⟨⟨failure, failedAlone, looped⟩, _⟩
      · exact ⟨spots, piecewise.failed apart entryMem doneMem fresh agrees same.symm (Or.inr rfl)⟩
      · exact ⟨spots, piecewise.failed apart entryMem doneMem fresh agrees failedAlone (Or.inl looped)⟩

end Piecewise

/-! ## Running the loop -/

/-- The name of the character set can be looked up, or there is no text to encode. -/
def Proceeds (cleanup : Cleanup) (findings : Findings) (disk : Disk) : Prop :=
  ∀ entry ∈ findings.entries, ∀ text, TextFile.read entry.1 disk = .ok text →
    '\x00' ∉ cleanup.charset.toList

theorem cleanFile_of_unusable {path text : String} (unwanted : List String)
    (unusable : '\x00' ∈ charset.toList) (readEq : TextFile.read path disk = .ok text) :
    cleanFile charset path unwanted disk = (.error (.breakdown .unusableCharset), disk) := by
  have unknown : ∀ text : String, Codecs.encode charset text = .error .unusableName := by
    intro text
    rw [Codecs.encode_eq, Charset.encodeNamed, Charset.meaning, if_pos (by simpa using unusable)]
  rw [cleanFile, readEq]
  simp only [TextFile.replace, unknown]

section Run

variable {cleanup : Cleanup} (progress : ∀ w, cleanup.progress = some w → w.Sound)
  (alarms : ∀ w, cleanup.alarms = some w → w.Sound)
include progress alarms

/-- The step of the loop succeeds. -/
theorem Piecewise.exists_perform_cleanOne {done : List (String × List String)} {spots : List Place}
    {result : Result} {before : RunState}
    (piecewise : Piecewise cleanup.charset first done spots result before.disk)
    (apart : first.Apart paths) (entryMem : entry.1 ∈ paths) (doneMem : ∀ a ∈ done, a.1 ∈ paths)
    (fresh : ∀ a ∈ done, a.1 ≠ entry.1) (usable : Disk.isUsable entry.1 = true)
    (named : ∀ text, TextFile.read entry.1 first = .ok text → '\x00' ∉ cleanup.charset.toList) :
    ∃ next after, (cleanup.cleanOne result entry).perform before = (.ok next, after) ∧
      ∃ more, Piecewise cleanup.charset first (done ++ [entry]) more next after.disk := by
  have elsewhere := piecewise.elsewhere apart entryMem doneMem fresh
  obtain ⟨more, kept⟩ := piecewise.step apart entryMem doneMem fresh usable
  obtain ⟨after, performed, diskEq⟩ := Cleanup.exists_perform_cleanOne progress alarms result before
    fun _ failed => confined_of_cleanFile usable
      (fun text readEq =>
        named text ((TextFile.read_elsewhere_iff elsewhere piecewise.refiles).mp readEq))
      (Prod.ext failed rfl)
  exact ⟨_, after, performed, more, diskEq ▸ kept⟩

/-- Cleaning the files of findings comes to an end, and what becomes of each of them is what becomes of it
alone. -/
theorem exists_perform_apply {findings : Findings} {before : RunState} (distinct : findings.Distinct)
    (usable : ∀ entry ∈ findings.entries, Disk.isUsable entry.1 = true)
    (apart : before.disk.Apart (findings.entries.map Prod.fst))
    (proceeds : cleanup.Proceeds findings before.disk) :
    ∃ result after, (cleanup.apply findings).perform before = (.ok result, after) ∧
      ∃ spots, Piecewise cleanup.charset before.disk findings.byPath spots result after.disk := by
  have found : ∀ entry ∈ findings.byPath, entry ∈ findings.entries :=
    fun entry mem => findings.perm_byPath.mem_iff.mp mem
  have known : ∀ entry ∈ findings.byPath, entry.1 ∈ findings.entries.map Prod.fst :=
    fun entry mem => List.mem_map_of_mem (found entry mem)
  have nodup : (findings.byPath.map Prod.fst).Nodup :=
    (findings.perm_byPath.map Prod.fst).nodup_iff.mpr distinct
  suffices looped : ∃ result after, (cleanup.apply findings).perform before = (.ok result, after) ∧
      ∃ done spots, done ++ [] = findings.byPath ∧
        Piecewise cleanup.charset before.disk done spots result after.disk by
    obtain ⟨result, after, applied, done, spots, all, piecewise⟩ := looped
    rw [List.append_nil] at all
    exact ⟨result, after, applied, spots, all ▸ piecewise⟩
  -- Each state is compared with the first disk: the entries that are done and those that are still to
  -- come make up all of them.
  refine Action.exists_perform_foldlM (fun pending result state => ∃ done spots,
    done ++ pending = findings.byPath ∧
      Piecewise cleanup.charset before.disk done spots result state.disk) ?_ ?_
  · rintro entry rest result state ⟨done, spots, all, piecewise⟩
    have mem : entry ∈ findings.byPath := all ▸ List.mem_append_right done List.mem_cons_self
    have doneMem : ∀ a ∈ done, a ∈ findings.byPath := fun a aMem => all ▸ List.mem_append_left _ aMem
    have fresh : ∀ a ∈ done, a.1 ≠ entry.1 := by
      rw [← all, List.map_append, List.map_cons] at nodup
      intro a aMem
      exact (List.nodup_append.mp nodup).2.2 a.1 (List.mem_map_of_mem aMem) entry.1 List.mem_cons_self
    obtain ⟨next, after, performed, more, kept⟩ := piecewise.exists_perform_cleanOne progress alarms apart
      (known entry mem) (fun a aMem => known a (doneMem a aMem)) fresh (usable entry (found entry mem))
      (proceeds entry (found entry mem))
    refine ⟨next, after, performed, done ++ [entry], more, ?_, kept⟩
    rw [List.append_assoc, List.singleton_append, all]
  · refine ⟨[], [], rfl, .of_agrees (.refl _), ?_, rfl, rfl, ?_, ?_⟩
    · exact fun _ mem => absurd mem List.not_mem_nil
    · exact fun _ mem => absurd mem List.not_mem_nil
    · exact fun _ mem => absurd mem List.not_mem_nil

/-- Cleaning the file of one entry alone. -/
theorem exists_perform_apply_singleton {before : RunState} (usable : Disk.isUsable entry.1 = true)
    (named : ∀ text, TextFile.read entry.1 before.disk = .ok text → '\x00' ∉ cleanup.charset.toList) :
    ∃ after, (cleanup.apply ⟨[entry]⟩).perform before =
        (.ok (Result.with {} entry.1 (cleanFile cleanup.charset entry.1 entry.2 before.disk).1), after) ∧
      after.disk = (cleanFile cleanup.charset entry.1 entry.2 before.disk).2 := by
  obtain ⟨after, performed, diskEq⟩ := exists_perform_cleanOne progress alarms {} before
    fun _ failed => confined_of_cleanFile usable named (Prod.ext failed rfl)
  refine ⟨after, ?_, diskEq⟩
  rw [apply, Findings.byPath, List.mergeSort_singleton, List.foldlM_cons, Action.perform_bind, performed]
  rfl

/-- If the name of the character set holds the character U+0000, cleaning files breaks down at the first
file that can be read. -/
theorem exists_perform_foldlM_error (unusable : '\x00' ∈ cleanup.charset.toList)
    {entries : List (String × List String)}
    (usable : ∀ entry ∈ entries, Disk.isUsable entry.1 = true) {before : RunState}
    (readable : ∃ entry ∈ entries, ∃ text, TextFile.read entry.1 before.disk = .ok text)
    (result : Result) :
    ∃ after, (entries.foldlM cleanup.cleanOne result).perform before =
      (.error (.breakdown .unusableCharset), after) ∧ after.disk = before.disk := by
  induction entries generalizing before result with
  | nil =>
      obtain ⟨_, mem, _⟩ := readable
      exact absurd mem List.not_mem_nil
  | cons entry rest ih =>
      rw [List.foldlM_cons]
      cases readEq : TextFile.read entry.1 before.disk with
      | ok text =>
          obtain ⟨after, failed, diskEq⟩ := exists_perform_cleanOne_error progress result
            (cleanFile_of_unusable entry.2 unusable readEq) rfl
          exact ⟨after, Action.perform_bind_eq_error_iff.mpr (Or.inl failed), diskEq⟩
      | error failure =>
          have tried : cleanFile cleanup.charset entry.1 entry.2 before.disk =
              (.error failure, before.disk) := by
            rw [cleanFile, readEq]
          obtain ⟨reason, rfl⟩ := TextFile.reason_of_read (usable entry List.mem_cons_self) readEq
          obtain ⟨between, performed, betweenEq⟩ :=
            exists_perform_cleanOne progress alarms result before (by
              rw [tried]
              rintro _ ⟨⟩
              exact ⟨reason, rfl⟩)
          have diskEq : between.disk = before.disk := by rw [betweenEq, tried]
          -- The first file cannot be read and is passed over, so that the readable one comes later.
          obtain ⟨other, mem, text, otherEq⟩ := readable
          have later : other ∈ rest := by
            refine List.mem_of_ne_of_mem ?_ mem
            rintro rfl
            cases readEq.symm.trans otherEq
          obtain ⟨after, failed, afterEq⟩ := ih (fun a aMem => usable a (List.mem_cons_of_mem entry aMem))
            ⟨other, later, text, diskEq ▸ otherEq⟩ _
          exact ⟨after, Action.perform_bind_eq_error_iff.mpr (Or.inr ⟨_, between, performed, failed⟩),
            afterEq.trans diskEq⟩

end Run

/-! ## Isolation -/

/-- An entry comes to the same among others as alone: its file is cleaned in both cases or in neither,
and what stands at its path is the same.  The reason of a failure is the same too, unless the path passes
too many links. -/
def AsAlone (cleanup : Cleanup) (entry : String × List String) (before : RunState) (result : Result)
    (after : RunState) : Prop :=
  ∃ alone later, (cleanup.apply ⟨[entry]⟩).perform before = (.ok alone, later) ∧
    (∀ spot, before.disk.entryPlace? entry.1 = some spot → after.disk.look spot = later.disk.look spot) ∧
    ((alone = ⟨[entry.1], []⟩ ∧ entry.1 ∈ result.written) ∨
      ∃ failure : Failure, alone = ⟨[], [(entry.1, failure.message)]⟩ ∧
        entry.1 ∈ result.failed.map Prod.fst ∧
        (Looped entry.1 failure ∨ (entry.1, failure.message) ∈ result.failed))

/-- Every file is cleaned for itself. -/
structure Isolated (cleanup : Cleanup) (findings : Findings) (before : RunState) (result : Result)
    (after : RunState) : Prop where
  written_ascending : result.written.Pairwise (· < ·)
  failed_ascending : (result.failed.map Prod.fst).Pairwise (· < ·)
  once : (result.written ++ result.failed.map Prod.fst).Perm (findings.entries.map Prod.fst)
  /-- An entry that failed is as it was. -/
  untouched : ∀ path ∈ result.failed.map Prod.fst, ∀ spot, before.disk.entryPlace? path = some spot →
    after.disk.look spot = before.disk.look spot
  /-- An entry that was written is a file with what is left of the text that the path led to. -/
  cleaned : ∀ entry ∈ findings.entries, entry.1 ∈ result.written → ∃ spot text bytes,
    before.disk.entryPlace? entry.1 = some spot ∧ TextFile.read entry.1 before.disk = .ok text ∧
      Charset.encodeNamed cleanup.charset (Resource.removing entry.2 text) = .ok bytes ∧
      after.disk.look spot = some (.file ⟨bytes, TextFile.modeFor before.disk (Path.tidy entry.1)⟩)
  alone : ∀ entry ∈ findings.entries, AsAlone cleanup entry before result after
  /-- Nothing else has changed. -/
  kept : ∀ place, (∀ path ∈ result.written, before.disk.entryPlace? path ≠ some place) →
    after.disk.look place = before.disk.look place

section Piecewise

variable {cleanup : Cleanup} {findings : Findings} {before after : RunState} {result : Result}
  {spots : List Place}

theorem Piecewise.mem_written_iff
    (piecewise : Piecewise charset first findings.byPath spots result disk) (distinct : findings.Distinct)
    (mem : entry ∈ findings.entries) :
    entry.1 ∈ result.written ↔ succeeds charset first entry = true := by
  rw [piecewise.written_eq, distinct.fst_mem_filter_byPath_iff mem]

theorem Piecewise.mem_failed_iff
    (piecewise : Piecewise charset first findings.byPath spots result disk) (distinct : findings.Distinct)
    (mem : entry ∈ findings.entries) :
    entry.1 ∈ result.failed.map Prod.fst ↔ succeeds charset first entry = false := by
  rw [piecewise.failed_eq, distinct.fst_mem_filter_byPath_iff mem, Bool.not_eq_true']

/-- The written and the failed paths are the paths of the findings. -/
theorem Piecewise.perm (piecewise : Piecewise charset first findings.byPath spots result disk) :
    (result.written ++ result.failed.map Prod.fst).Perm (findings.entries.map Prod.fst) := by
  rw [piecewise.written_eq, piecewise.failed_eq, ← List.map_append]
  exact ((List.filter_append_perm _ findings.byPath).trans findings.perm_byPath).map Prod.fst

/-- What is written on an entry that was cleaned. -/
theorem Piecewise.exists_new
    (piecewise : Piecewise charset first findings.byPath spots result disk)
    (mem : entry ∈ findings.entries) (succeeded : succeeds charset first entry = true) :
    ∃ spot text bytes, first.entryPlace? entry.1 = some spot ∧
      TextFile.read entry.1 first = .ok text ∧
      Charset.encodeNamed charset (Resource.removing entry.2 text) = .ok bytes ∧
      disk.look spot = some (.file ⟨bytes, TextFile.modeFor first (Path.tidy entry.1)⟩) := by
  obtain ⟨text, place, name, contents, readEq, replaces⟩ :=
    replaces_of_cleanFile (Prod.ext (succeeds_eq_true_iff.mp succeeded) rfl)
  have spotEq : first.entryPlace? entry.1 = some (place ++ [name]) :=
    Disk.entryPlace?_eq_some_iff.mpr ⟨place, name, replaces.held, rfl⟩
  refine ⟨place ++ [name], text, contents.bytes, spotEq, readEq, replaces.encoded, ?_⟩
  rw [piecewise.look_eq entry (findings.perm_byPath.mem_iff.mpr mem) _ spotEq,
    replaces.overwrites.look_spot, ← replaces.mode_eq]

/-- An entry comes to the same as alone. -/
theorem Piecewise.asAlone
    (piecewise : Piecewise cleanup.charset before.disk findings.byPath spots result after.disk)
    (distinct : findings.Distinct) (mem : entry ∈ findings.entries)
    (usable : Disk.isUsable entry.1 = true) (proceeds : cleanup.Proceeds findings before.disk)
    (progress : ∀ w, cleanup.progress = some w → w.Sound)
    (alarms : ∀ w, cleanup.alarms = some w → w.Sound) : AsAlone cleanup entry before result after := by
  have visited := findings.perm_byPath.mem_iff.mpr mem
  obtain ⟨later, applied, diskEq⟩ :=
    exists_perform_apply_singleton progress alarms usable (proceeds entry mem)
  refine ⟨_, later, applied, fun spot spotEq => ?_, ?_⟩
  · rw [diskEq, piecewise.look_eq entry visited spot spotEq]
  cases tried : (cleanFile cleanup.charset entry.1 entry.2 before.disk).1 with
  | ok _ =>
      have cleaned := succeeds_eq_true_iff.mpr tried
      exact Or.inl ⟨rfl, (piecewise.mem_written_iff distinct mem).mpr cleaned⟩
  | error failure =>
      have failed := succeeds_eq_false_iff.mpr ⟨failure, tried⟩
      exact Or.inr ⟨failure, rfl, (piecewise.mem_failed_iff distinct mem).mpr failed,
        piecewise.reasons entry visited failure tried⟩

/-- When all entries are done, every file has been cleaned for itself. -/
theorem Piecewise.isolated
    (piecewise : Piecewise cleanup.charset before.disk findings.byPath spots result after.disk)
    (distinct : findings.Distinct)
    (usable : ∀ entry ∈ findings.entries, Disk.isUsable entry.1 = true)
    (proceeds : cleanup.Proceeds findings before.disk)
    (progress : ∀ w, cleanup.progress = some w → w.Sound)
    (alarms : ∀ w, cleanup.alarms = some w → w.Sound) :
    Isolated cleanup findings before result after := by
  constructor
  case written_ascending =>
    rw [piecewise.written_eq]
    exact distinct.ascending.sublist (List.filter_sublist.map Prod.fst)
  case failed_ascending =>
    rw [piecewise.failed_eq]
    exact distinct.ascending.sublist (List.filter_sublist.map Prod.fst)
  case once => exact piecewise.perm
  case untouched =>
    intro path pathMem spot spotEq
    have listed := piecewise.perm.mem_iff.mp (List.mem_append_right _ pathMem)
    obtain ⟨entry, mem, rfl⟩ := List.mem_map.mp listed
    obtain ⟨failure, tried⟩ :=
      succeeds_eq_false_iff.mp ((piecewise.mem_failed_iff distinct mem).mp pathMem)
    rw [piecewise.look_eq entry (findings.perm_byPath.mem_iff.mpr mem) spot spotEq,
      (agrees_of_cleanFile (Prod.ext tried rfl)).look_eq]
  case cleaned =>
    intro entry mem written
    exact piecewise.exists_new mem ((piecewise.mem_written_iff distinct mem).mp written)
  case alone =>
    intro entry mem
    exact piecewise.asAlone distinct mem (usable entry mem) proceeds progress alarms
  case kept =>
    intro place notWritten
    refine piecewise.overlays.look_eq place fun mem => ?_
    obtain ⟨entry, visited, cleaned, spotEq⟩ := piecewise.owned place mem
    have found := findings.perm_byPath.mem_iff.mp visited
    exact notWritten entry.1 ((piecewise.mem_written_iff distinct found).mpr cleaned) spotEq

end Piecewise

/-- Let no two of the paths of findings lead to one file, and let no path hold the character U+0000.
Unless a text would have to be encoded in a character set whose name holds that character, cleaning the
files does not fail, and every file is cleaned for itself; else it breaks down, and every file is as it
was.  The order in which the findings were recorded makes no difference. -/
theorem apply_isolated {cleanup : Cleanup} {findings : Findings} {before : RunState}
    (distinct : findings.Distinct)
    (usable : ∀ entry ∈ findings.entries, Disk.isUsable entry.1 = true)
    (apart : before.disk.Apart (findings.entries.map Prod.fst))
    (progress : ∀ w, cleanup.progress = some w → w.Sound)
    (alarms : ∀ w, cleanup.alarms = some w → w.Sound) :
    (cleanup.Proceeds findings before.disk →
      ∃ result after, (cleanup.apply findings).perform before = (.ok result, after) ∧
        Isolated cleanup findings before result after) ∧
    (¬ cleanup.Proceeds findings before.disk →
      ∃ after, (cleanup.apply findings).perform before = (.error (.breakdown .unusableCharset), after) ∧
        after.disk = before.disk) ∧
    ∀ other : Findings, other.entries.Perm findings.entries →
      cleanup.apply other = cleanup.apply findings := by
  refine ⟨fun proceeds => ?_, fun stalls => ?_, fun other perm => ?_⟩
  · obtain ⟨result, after, applied, spots, piecewise⟩ :=
      exists_perform_apply progress alarms distinct usable apart proceeds
    exact ⟨result, after, applied,
      piecewise.isolated distinct usable proceeds progress alarms⟩
  · simp only [Proceeds, not_forall, not_not] at stalls
    obtain ⟨entry, mem, text, readEq, unusable⟩ := stalls
    refine exists_perform_foldlM_error progress alarms unusable ?_ ?_ {}
    · exact fun a aMem => usable a (findings.perm_byPath.mem_iff.mp aMem)
    · exact ⟨entry, findings.perm_byPath.mem_iff.mpr mem, text, readEq⟩
  · rw [apply, apply, distinct.byPath_eq_of_perm perm]

/-- Three resource files: one is a link to a file in another directory, and one cannot be replaced. -/
def mixedDisk : Disk where
  root := .folder "app"
    (.file "full.strings" ⟨Charset.Utf8.encode "\"gone\" = \"1\";".toList, 0o644⟩
      (.link "help.strings" "../shared/help.strings"
        (.file "ui.strings" ⟨Charset.Utf8.encode "\"gone\" = \"1\";\n\"kept\" = \"2\";".toList, 0o600⟩
          .empty)))
    (.folder "shared"
      (.file "help.strings" ⟨Charset.Utf8.encode "\"gone\" = \"1\";".toList, 0o640⟩ .empty)
      .empty)
  here := []
  refusals := { replacing := ["app/full.strings"] }

/-- Findings on `mixedDisk`, not in the order of their paths. -/
def mixedFound : Findings :=
  ⟨[("app/ui.strings", ["gone"]), ("app/full.strings", ["gone"]), ("app/help.strings", ["gone"])]⟩

/-- The findings on `mixedDisk` in the order of their paths. -/
def sortedFound : Findings :=
  ⟨[("app/full.strings", ["gone"]), ("app/help.strings", ["gone"]), ("app/ui.strings", ["gone"])]⟩

/-- On `mixedDisk` two files are cleaned and the third one is as it was.  The link is a file of its own
now, and the file that it led to is still the same. -/
theorem apply_isolated_mixedDisk :
    ∃ result after, (({} : Cleanup).apply mixedFound).perform { disk := mixedDisk } = (.ok result, after) ∧
      Isolated {} mixedFound { disk := mixedDisk } result after ∧
      result.written = ["app/help.strings", "app/ui.strings"] ∧
      after.disk.look ["app", "full.strings"] = mixedDisk.look ["app", "full.strings"] ∧
      after.disk.look ["app", "help.strings"] = some (.file ⟨[], 0o640⟩) ∧
      after.disk.look ["shared", "help.strings"] = mixedDisk.look ["shared", "help.strings"] := by
  have apart : mixedDisk.Apart (mixedFound.entries.map Prod.fst) :=
    Disk.Apart.of_resolve (by decide +kernel) (by decide +kernel)
  obtain ⟨isolates, -, anyOrder⟩ := @apply_isolated {} mixedFound { disk := mixedDisk }
    (by decide +kernel) (by decide +kernel) apart (by simp) (by simp)
  obtain ⟨result, after, applied, isolated⟩ := isolates fun _ _ _ _ => by decide +kernel
  have sorted : sortedFound.byPath = sortedFound.entries := List.mergeSort_of_pairwise (by decide +kernel)
  have outcome : ((({} : Cleanup).apply mixedFound).perform { disk := mixedDisk }).1 =
      .ok ⟨["app/help.strings", "app/ui.strings"], [("app/full.strings",
        "cannot write file: app/full.strings ([Errno 28] No space left on device: 'app/full.strings')")]⟩ := by
    rw [← anyOrder sortedFound (by decide +kernel), apply, sorted]
    decide +kernel
  obtain rfl := Except.ok.inj ((congrArg Prod.fst applied).symm.trans outcome)
  have entryPlace : mixedDisk.entryPlace? "app/help.strings" = some ["app", "help.strings"] := by
    decide +kernel
  have others : ∀ place, place ≠ ["app", "help.strings"] → place ≠ ["app", "ui.strings"] →
      after.disk.look place = mixedDisk.look place := by
    intro place notHelp notUi
    have entryPlaceUi : mixedDisk.entryPlace? "app/ui.strings" = some ["app", "ui.strings"] := by
      decide +kernel
    refine isolated.kept place ?_
    simp [entryPlace, entryPlaceUi, Ne.symm notHelp, Ne.symm notUi]
  refine ⟨_, after, applied, isolated, rfl, others _ (by decide) (by decide), ?_,
    others _ (by decide) (by decide)⟩
  obtain ⟨spot, text, bytes, spotEq, readEq, encoded, new⟩ :=
    isolated.cleaned ("app/help.strings", ["gone"]) (by decide +kernel) (by decide +kernel)
  have textIs : TextFile.read "app/help.strings" mixedDisk = .ok "\"gone\" = \"1\";" := by decide +kernel
  have bytesAre : Charset.encodeNamed "utf-8" (Resource.removing ["gone"] "\"gone\" = \"1\";") = .ok [] := by
    decide +kernel
  have mode : TextFile.modeFor mixedDisk (Path.tidy "app/help.strings") = 0o640 := by decide +kernel
  obtain rfl := Option.some.inj (entryPlace.symm.trans spotEq)
  obtain rfl := Except.ok.inj (textIs.symm.trans readEq)
  obtain rfl := Except.ok.inj (bytesAre.symm.trans encoded)
  exact mode ▸ new

/-- A single resource file. -/
def singleDisk : Disk where
  root := .file "ui.strings" ⟨Charset.Utf8.encode "\"gone\" = \"1\";\n".toList, 0o644⟩ .empty
  here := []

/-- On `singleDisk` a character set with the character U+0000 in its name ends the cleaning, and the file
is not reported as failed. -/
theorem apply_ne_ok_singleDisk :
    let cleanup : Cleanup := { charset := "utf-8\x00" }
    let findings : Findings := ⟨[("ui.strings", ["gone"])]⟩
    let before : RunState := { disk := singleDisk }
    findings.Distinct ∧ (∀ entry ∈ findings.entries, Disk.isUsable entry.1 = true) ∧
      before.disk.Apart (findings.entries.map Prod.fst) ∧
      ((cleanup.apply findings).perform before).1 = .error (.breakdown .unusableCharset) ∧
      ∀ result after, (cleanup.apply findings).perform before ≠ (.ok result, after) := by
  intro cleanup findings before
  have apart : singleDisk.Apart ["ui.strings"] :=
    Disk.Apart.of_resolve (by decide +kernel) (by decide +kernel)
  have broken : ((cleanup.apply findings).perform before).1 = .error (.breakdown .unusableCharset) := by
    rw [apply, Findings.byPath, List.mergeSort_singleton]
    decide +kernel
  refine ⟨by decide +kernel, by decide +kernel, apart, broken, fun result after applied => ?_⟩
  rw [applied] at broken
  cases broken

end Cleanup

end StringAudit
