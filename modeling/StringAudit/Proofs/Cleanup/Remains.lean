import StringAudit.Proofs.Cleanup.Step
import StringAudit.Proofs.Findings
import StringAudit.Proofs.Resource.Removal

/-!
# What remains of cleaned files

Several findings may be of one file, reached through links or by different paths, so that its text
may be cleaned more than once.  What remains of a text is therefore said by a relation that one
cleaning establishes and any further cleaning keeps.  The invariant of the loop over findings: every
new file stands where an entry led to the file of a finding, and holds what remains of its text; and
every path that is done leads to such a file.
-/

namespace StringAudit.Cleanup

section Cleans

variable [Codecs] {charset path : String} {unwanted : List String} {before after : Disk} {place : Place}
  {name text : String} {contents : File}

/-- The new file stands where an entry led to the cleaned one. -/
theorem Cleans.refiles (cleans : Cleans charset path unwanted before after place name text contents) :
    after.Refiles before [place ++ [name]] where
  toOverlays := cleans.overwrites.overlays_self
  old := by
    intro spot mem
    obtain rfl := List.mem_singleton.mp mem
    obtain ⟨goal, shows⟩ := Disk.Shows.of_read cleans.read_eq
    obtain ⟨further, entryLeads⟩ := shows.entryLeads cleans.held
    exact ⟨further, goal, entryLeads, shows.leaf⟩

/-- A cleaned path leads to the new file. -/
theorem Cleans.leads_spot (cleans : Cleans charset path unwanted before after place name text contents) :
    ∃ links, after.Leads (.parse path) links (place ++ [name]) := by
  obtain ⟨goal, shows⟩ := Disk.Shows.of_read cleans.read_eq
  obtain ⟨further, entryLeads⟩ := shows.entryLeads cleans.held
  obtain ⟨front, namesEq, _, _, ⟨links, _, route⟩, there⟩ :=
    (Disk.holder_eq_ok_iff (Path.parse_proper path)).mp cleans.held
  obtain ⟨routeAfter, thereAfter⟩ := cleans.refiles.route_folder_iff.mpr ⟨route, there⟩
  refine ⟨links + 0, ?_⟩
  rw [Disk.Leads, namesEq, Path.base, cleans.overwrites.here_eq]
  exact routeAfter.append (.enter thereAfter (entryLeads.isStep shows.leaf) cleans.overwrites.look_spot
    (by simp) (.done _))

end Cleans

/-- A relation between an old text, the identifiers found in it and what remains of the text.
Cleaning the old text, or what remains of it, leaves what remains of it. -/
def Remains (charset : String) (left : String → List String → String → Prop) (old : String)
    (unwanted : List String) : Prop :=
  ∀ text, text = old ∨ left old unwanted text → ∀ bytes,
    Charset.encodeNamed charset (Resource.removing unwanted text) = .ok bytes →
      ∃ again : String, TextFile.decode bytes = .ok again.toList ∧ left old unwanted again

/-- Findings of files with texts: files with one text have the same identifiers, and a relation says
what remains of each text. -/
structure Coherent (charset : String) (left : String → List String → String → Prop) (first : Disk)
    (entries : List (String × List String)) : Prop where
  shown : ∀ entry ∈ entries, ∃ place old, first.Shows entry.1 place old
  same : ∀ a ∈ entries, ∀ b ∈ entries, ∀ place old,
    first.Shows a.1 place old → first.Shows b.1 place old → a.2 = b.2
  remains : ∀ entry ∈ entries, ∀ place old, first.Shows entry.1 place old →
    Remains charset left old entry.2

/-- A new file stands where an entry led to the file of a finding, and holds what remains of its
text. -/
structure Stems (left : String → List String → String → Prop) (first disk : Disk)
    (entry : String × List String) (spot place : Place) (old : String) : Prop where
  shows : first.Shows entry.1 place old
  led : ∃ links, first.EntryLeads spot links place
  holds : ∃ contents, ∃ text : String, disk.look spot = some (.file contents) ∧
    TextFile.decode contents.bytes = .ok text.toList ∧ left old entry.2 text

/-- The disk in the middle of the loop: all new files stem from findings, and paths that are done
lead to new files. -/
structure Traced (left : String → List String → String → Prop) (first : Disk)
    (entries : List (String × List String)) (spots : List Place) (done : List String) (disk : Disk) :
    Prop where
  overlays : Disk.Overlays disk first spots
  ascending : disk.root.Ascending
  stems : ∀ spot ∈ spots, ∃ entry ∈ entries, ∃ place old, Stems left first disk entry spot place old
  done : ∀ path ∈ done, ∀ links goal, disk.Leads (.parse path) links goal → goal ∈ spots

namespace Traced

variable {left : String → List String → String → Prop} {first disk : Disk}
  {entries : List (String × List String)} {spots : List Place} {done : List String}

/-- New files stand where entries led to files. -/
theorem refiles (traced : Traced left first entries spots done disk) : disk.Refiles first spots where
  toOverlays := traced.overlays
  old := by
    intro spot mem
    obtain ⟨_, _, place, _, stems⟩ := traced.stems spot mem
    obtain ⟨links, led⟩ := stems.led
    exact ⟨links, place, led, stems.shows.leaf⟩

/-- A path that showed a text shows it still, or what remains of it. -/
theorem shows_after (traced : Traced left first entries spots done disk) {path old : String}
    {place : Place} (shows : first.Shows path place old) :
    (place ∉ spots ∧ disk.Shows path place old) ∨
      ∃ spot ∈ spots, ∃ text, disk.Shows path spot text ∧
        ∃ entry ∈ entries, first.Shows entry.1 place old ∧ left old entry.2 text := by
  obtain ⟨links, contents, reads, decoded⟩ := shows
  rcases reads.after traced.refiles with ⟨elsewhere, kept⟩ | ⟨spot, mem, fewer, new, kept, _, ledTo⟩
  · exact Or.inl ⟨elsewhere, links, contents, kept, decoded⟩
  · obtain ⟨entry, entryMem, place', old', stems⟩ := traced.stems spot mem
    obtain ⟨_, led⟩ := stems.led
    obtain rfl := led.deterministic ledTo
    obtain rfl := stems.shows.text_eq ⟨links, contents, reads, decoded⟩
    obtain ⟨holding, text, found, newDecoded, remains⟩ := stems.holds
    obtain rfl : holding = new := by simpa [found] using kept.found
    exact Or.inr ⟨spot, mem, text, ⟨fewer, holding, kept, newDecoded⟩,
      entry, entryMem, stems.shows, remains⟩

/-- The text of a finding is the old one, or what remains of it. -/
theorem eq_or_left (traced : Traced left first entries spots done disk) {charset : String}
    (coherent : Coherent charset left first entries) {entry : String × List String}
    (mem : entry ∈ entries) {old text : String} {place : Place} (shows : first.Shows entry.1 place old)
    (readEq : TextFile.read entry.1 disk = .ok text) : text = old ∨ left old entry.2 text := by
  obtain ⟨now, showsNow⟩ := Disk.Shows.of_read readEq
  rcases traced.shows_after shows with ⟨_, kept⟩ |
    ⟨_, _, again, kept, other, otherMem, otherShows, remains⟩
  · exact Or.inl (showsNow.unique kept).2
  · obtain ⟨_, rfl⟩ := showsNow.unique kept
    rw [coherent.same entry mem other otherMem place old shows otherShows]
    exact Or.inr remains

/-- A finding that is done shows what remains of its text. -/
theorem left_of_done (traced : Traced left first entries spots done disk) {charset : String}
    (coherent : Coherent charset left first entries) {entry : String × List String}
    (mem : entry ∈ entries) (doneMem : entry.1 ∈ done) {place : Place} {old : String}
    (shows : first.Shows entry.1 place old) :
    ∃ spot text, disk.Shows entry.1 spot text ∧ left old entry.2 text := by
  rcases traced.shows_after shows with ⟨elsewhere, kept⟩ |
    ⟨spot, _, text, kept, other, otherMem, otherShows, remains⟩
  · obtain ⟨_, _, reads, _⟩ := kept
    exact absurd (traced.done entry.1 doneMem _ _ reads.leads) elsewhere
  · rw [coherent.same entry mem other otherMem place old shows otherShows]
    exact ⟨spot, text, kept, remains⟩

/-- A cleaning that fails changes nothing. -/
theorem failed {after : Disk} (traced : Traced left first entries spots done disk)
    (agrees : after.Agrees disk) (ascending : after.root.Ascending) :
    Traced left first entries spots done after where
  overlays := agrees.overlays traced.overlays
  ascending := ascending
  stems := by
    intro spot mem
    obtain ⟨entry, entryMem, place, old, stems⟩ := traced.stems spot mem
    exact ⟨entry, entryMem, place, old, stems.shows, stems.led, agrees.look_eq spot ▸ stems.holds⟩
  done := by
    intro path mem links goal leads
    rw [agrees.leads_iff] at leads
    exact traced.done path mem links goal leads

/-- A cleaning that succeeds adds one new file. -/
theorem cleaned {after : Disk} (traced : Traced left first entries spots done disk) {charset : String}
    (coherent : Coherent charset left first entries) {entry : String × List String}
    (mem : entry ∈ entries) {place : Place} {name text : String} {contents : File}
    (cleans : Cleans charset entry.1 entry.2 disk after place name text contents)
    (ascending : after.root.Ascending) :
    Traced left first entries ((place ++ [name]) :: spots) (done ++ [entry.1]) after := by
  obtain ⟨goal, old, shows⟩ := coherent.shown entry mem
  obtain ⟨again, decoded, remains⟩ := coherent.remains entry mem goal old shows text
    (traced.eq_or_left coherent mem shows cleans.read_eq) _ cleans.encoded
  constructor
  case overlays => exact cleans.overwrites.overlays traced.overlays
  case ascending => exact ascending
  case stems =>
    intro spot spotMem
    by_cases same : spot = place ++ [name]
    · subst spot
      have heldFirst := traced.overlays.holder_before (Path.parse_proper entry.1) cleans.held
      exact ⟨entry, mem, goal, old, shows, shows.entryLeads heldFirst, contents, again,
        cleans.overwrites.look_spot, decoded, remains⟩
    · obtain ⟨other, otherMem, otherPlace, otherOld, stems⟩ :=
        traced.stems spot (List.mem_of_ne_of_mem same spotMem)
      have holds := stems.holds
      rw [← cleans.overwrites.look_of_ne same] at holds
      exact ⟨other, otherMem, otherPlace, otherOld, stems.shows, stems.led, holds⟩
  case done =>
    intro path pathMem links target leads
    by_cases same : target = place ++ [name]
    · exact same ▸ List.mem_cons_self
    rcases List.mem_append.mp pathMem with old | last
    · have leadsBefore : disk.Leads (.parse path) links target := by
        rw [Disk.Leads, ← cleans.overwrites.here_eq]
        exact cleans.overwrites.route_before leads same
      exact List.mem_cons_of_mem _ (traced.done path old links target leadsBefore)
    · obtain rfl := List.mem_singleton.mp last
      obtain ⟨_, leadsNew⟩ := cleans.leads_spot
      exact absurd (leads.deterministic leadsNew).2 same

end Traced

/-- Cleaning the files of coherent findings traces every new file to a finding. -/
theorem traced_of_apply {cleanup : Cleanup} {findings : Findings}
    {left : String → List String → String → Prop} {before after : RunState} {result : Result}
    (coherent : Coherent cleanup.charset left before.disk findings.entries)
    (ascending : before.disk.root.Ascending)
    (applied : (cleanup.apply findings).perform before = (.ok result, after)) :
    ∃ spots, Traced left before.disk findings.entries spots result.written after.disk := by
  have sorted := findings.perm_byPath
  have kept := Action.perform_foldlM_invariant
    (fun pending result state => (∀ entry ∈ pending, entry ∈ findings.entries) ∧
      ∃ spots, Traced left before.disk findings.entries spots result.written state.disk) ?_ ?_ applied
  · exact kept.2
  · rintro entry rest result middle next later ⟨subset, spots, traced⟩ stepped
    have restSubset := fun other mem => subset other (List.mem_cons_of_mem entry mem)
    obtain ⟨_, diskEq, ⟨agrees, _, _, rfl⟩ | ⟨rfl, place, name, text, contents, cleans⟩⟩ :=
      perform_cleanOne_cases stepped
    all_goals
      have laterAscending : later.disk.root.Ascending :=
        diskEq ▸ ascending_cleanFile traced.ascending cleanup.charset entry.1 entry.2
    · exact ⟨restSubset, spots, traced.failed agrees laterAscending⟩
    · have entryMem := subset entry List.mem_cons_self
      exact ⟨restSubset, _, traced.cleaned coherent entryMem cleans laterAscending⟩
  · refine ⟨fun entry mem => sorted.mem_iff.mp mem, [], .of_agrees (.refl _), ascending, ?_, ?_⟩
    · exact fun _ mem => absurd mem List.not_mem_nil
    · exact fun _ mem => absurd mem List.not_mem_nil

end StringAudit.Cleanup
