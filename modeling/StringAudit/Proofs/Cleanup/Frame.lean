import StringAudit.Proofs.Cleanup.Step
import StringAudit.Proofs.Findings

/-!
# What cleaning several files changes

The invariant of the loop over findings: the disk differs from the first one by files at some spots,
each the entry of a path that is done; no path that is still to come leads to such a file; and every
path that is done is settled.  It holds because paths of different files name different entries,
whatever links they pass.
-/

namespace StringAudit.Cleanup

/-- The file of an entry is as it was on the first disk and the alarm stream says why, or it is a
file of its own with the text that is left. -/
def Settled (cleanup : Cleanup) (first : Disk) (start : Console) (state : RunState)
    (entry : String × List String) : Prop :=
  ∃ spot, first.entryPlace? entry.1 = some spot ∧
    ((state.disk.look spot = first.look spot ∧ cleanup.Alarmed entry.1 start state.console) ∨
      ∃ text contents, TextFile.read entry.1 first = .ok text ∧
        Charset.encodeNamed cleanup.charset (Resource.removing entry.2 text) = .ok contents.bytes ∧
        state.disk.look spot = some (.file contents))

theorem Settled.mono {cleanup : Cleanup} {disk : Disk} {start first : Console} {state : RunState}
    {entry : String × List String} (settled : cleanup.Settled disk start state entry)
    (continues : start.Continues first) : cleanup.Settled disk first state entry := by
  obtain ⟨spot, spotEq, outcome⟩ := settled
  exact ⟨spot, spotEq, outcome.imp_left fun kept => ⟨kept.1, kept.2.mono continues (.refl _)⟩⟩

/-- Findings of different files, none of which is the entry at a reserved place. -/
structure Separate (first : Disk) (entries : List (String × List String)) (reserved : List Place) :
    Prop where
  readable : ∀ entry ∈ entries, ∃ text, TextFile.read entry.1 first = .ok text
  apart : ∀ a ∈ entries, ∀ b ∈ entries, a ≠ b → first.target? a.1 ≠ first.target? b.1
  clear : ∀ entry ∈ entries, ∀ spot, first.entryPlace? entry.1 = some spot → spot ∉ reserved

namespace Separate

variable {first : Disk} {entries : List (String × List String)} {reserved : List Place}

theorem reads (separate : Separate first entries reserved) {entry : String × List String}
    (mem : entry ∈ entries) :
    ∃ links place contents, first.Reads entry.1 links place contents := by
  obtain ⟨text, readEq⟩ := separate.readable entry mem
  obtain ⟨links, place, contents, reads, _⟩ := TextFile.read_eq_ok_iff.mp readEq
  exact ⟨links, place, contents, reads⟩

/-- Every path of a finding names an entry. -/
theorem exists_entryPlace (separate : Separate first entries reserved) {entry : String × List String}
    (mem : entry ∈ entries) : ∃ spot, first.entryPlace? entry.1 = some spot := by
  obtain ⟨_, _, _, reads⟩ := separate.reads mem
  obtain ⟨holder, name, _, _, _, held, _⟩ := reads.exists_holder
  exact ⟨holder ++ [name], Disk.entryPlace?_eq_some_iff.mpr ⟨holder, name, held, rfl⟩⟩

/-- Different findings are of different entries. -/
theorem entryPlace_ne (separate : Separate first entries reserved) {a b : String × List String}
    (aMem : a ∈ entries) (bMem : b ∈ entries) (different : a ≠ b) {spot other : Place}
    (aSpot : first.entryPlace? a.1 = some spot) (bSpot : first.entryPlace? b.1 = some other) :
    spot ≠ other := by
  rintro rfl
  exact separate.apart a aMem b bMem different (Disk.target?_eq_of_entryPlace?_eq aSpot bSpot)

end Separate

/-- The state in the middle of the loop. -/
structure Midway (cleanup : Cleanup) (first : Disk) (entries : List (String × List String))
    (reserved : List Place) (start : Console) (spots : List Place)
    (pending : List (String × List String)) (state : RunState) : Prop where
  subset : ∀ entry ∈ pending, entry ∈ entries
  nodup : pending.Nodup
  overlays : Disk.Overlays state.disk first spots
  owned : ∀ spot ∈ spots, spot ∈ reserved ∨
    ∃ entry ∈ entries, entry ∉ pending ∧ first.entryPlace? entry.1 = some spot
  untouched : ∀ entry ∈ pending, ∀ links goal,
    state.disk.Leads (.parse entry.1) links goal → goal ∉ spots
  settled : ∀ entry ∈ entries, entry ∉ pending → cleanup.Settled first start state entry
  continues : state.console.Continues start

namespace Midway

variable {cleanup : Cleanup} {first : Disk} {entries rest : List (String × List String)}
  {reserved spots : List Place} {start : Console} {entry : String × List String}
  {before after : RunState}

/-- The entry that is cleaned next has not been overwritten. -/
theorem entryPlace_notMem
    (midway : Midway cleanup first entries reserved start spots (entry :: rest) before)
    (separate : Separate first entries reserved) {spot : Place}
    (spotEq : first.entryPlace? entry.1 = some spot) : spot ∉ spots := by
  intro mem
  have entryMem := midway.subset entry List.mem_cons_self
  rcases midway.owned spot mem with held | ⟨other, otherMem, done, otherEq⟩
  · exact separate.clear entry entryMem spot spotEq held
  · have different : entry ≠ other := by
      rintro rfl
      exact done List.mem_cons_self
    exact separate.entryPlace_ne entryMem otherMem different spotEq otherEq rfl

theorem settled_of_agrees
    (midway : Midway cleanup first entries reserved start spots (entry :: rest) before)
    (separate : Separate first entries reserved) (agrees : after.disk.Agrees before.disk)
    (alarmed : cleanup.Alarmed entry.1 before.console after.console) :
    cleanup.Settled first start after entry := by
  obtain ⟨spot, spotEq⟩ := separate.exists_entryPlace (midway.subset entry List.mem_cons_self)
  have untouched := midway.entryPlace_notMem separate spotEq
  refine ⟨spot, spotEq, Or.inl ⟨?_, ?_⟩⟩
  · rw [agrees.look_eq, midway.overlays.look_eq spot untouched]
  · exact alarmed.mono midway.continues (.refl _)

/-- The step of the loop that fails. -/
theorem failed (midway : Midway cleanup first entries reserved start spots (entry :: rest) before)
    (separate : Separate first entries reserved) (continues : after.console.Continues before.console)
    (agrees : after.disk.Agrees before.disk)
    (alarmed : cleanup.Alarmed entry.1 before.console after.console) :
    Midway cleanup first entries reserved start spots rest after where
  subset := fun other mem => midway.subset other (List.mem_cons_of_mem entry mem)
  nodup := (List.nodup_cons.mp midway.nodup).2
  overlays := agrees.overlays midway.overlays
  owned := by
    intro spot mem
    rcases midway.owned spot mem with held | ⟨other, otherMem, done, otherEq⟩
    · exact Or.inl held
    · exact Or.inr ⟨other, otherMem, fun later => done (List.mem_cons_of_mem entry later), otherEq⟩
  untouched := by
    intro other mem links goal leads
    rw [agrees.leads_iff] at leads
    exact midway.untouched other (List.mem_cons_of_mem entry mem) links goal leads
  settled := by
    intro other mem done
    by_cases same : other = entry
    · subst other
      exact midway.settled_of_agrees separate agrees alarmed
    · obtain ⟨spot, spotEq, old⟩ := midway.settled other mem (by simp [same, done])
      refine ⟨spot, spotEq, ?_⟩
      rw [agrees.look_eq]
      exact old.imp_left fun kept => ⟨kept.1, kept.2.mono (.refl _) continues⟩
  continues := continues.trans midway.continues

/-- The file that is cleaned is the one that the path led to on the first disk. -/
theorem reads_first (midway : Midway cleanup first entries reserved start spots (entry :: rest) before)
    {text : String} (readEq : TextFile.read entry.1 before.disk = .ok text) :
    ∃ links goal contents, before.disk.Reads entry.1 links goal contents ∧
      first.Reads entry.1 links goal contents ∧ TextFile.read entry.1 first = .ok text := by
  obtain ⟨links, goal, contents, reads, decoded⟩ := TextFile.read_eq_ok_iff.mp readEq
  have elsewhere := midway.untouched entry List.mem_cons_self links goal reads.leads
  have readsFirst := reads.before midway.overlays elsewhere
  exact ⟨links, goal, contents, reads, readsFirst,
    TextFile.read_eq_ok_iff.mpr ⟨links, goal, contents, readsFirst, decoded⟩⟩

/-- No path that is still to come leads to the file that was just cleaned: such a path would have
led, on the first disk, to the same file as the path of the cleaned one. -/
theorem not_leads_cleaned
    (midway : Midway cleanup first entries reserved start spots (entry :: rest) before)
    (separate : Separate first entries reserved) {place : Place} {name text : String} {contents : File}
    (cleans : Cleans cleanup.charset entry.1 entry.2 before.disk after.disk place name text contents)
    {other : String × List String} (mem : other ∈ rest) (links : Nat) :
    ¬ after.disk.Leads (.parse other.1) links (place ++ [name]) := by
  intro leads
  have entryMem := midway.subset entry List.mem_cons_self
  have otherMem := midway.subset other (List.mem_cons_of_mem entry mem)
  have different : other ≠ entry := by
    rintro rfl
    exact (List.nodup_cons.mp midway.nodup).1 mem
  obtain ⟨_, goal, _, reads, readsFirst, _⟩ := midway.reads_first cleans.read_eq
  obtain ⟨place', name', _, onward, _, held, _, last⟩ := reads.exists_holder
  obtain ⟨rfl, rfl⟩ : place = place' ∧ name = name' := by
    simpa using (cleans.held.symm.trans held)
  obtain ⟨otherLinks, otherGoal, _, otherReads⟩ := separate.reads otherMem
  have away : (Path.parse other.1).base after.disk.here ≠ place ++ [name] := by
    obtain ⟨piece, pieces, namesEq⟩ := List.exists_cons_of_ne_nil otherReads.named
    rw [Disk.Leads, namesEq] at leads
    exact cleans.overwrites.ne_of_folder leads.folder_of_cons
  have leadsBefore : before.disk.Leads (.parse other.1) (links + onward) goal := by
    rw [Disk.Leads, ← cleans.overwrites.here_eq]
    exact (cleans.overwrites.route_before_iff leads away _ goal).mpr ⟨onward, rfl, last⟩
  have elsewhere := midway.untouched other (List.mem_cons_of_mem entry mem) _ goal leadsBefore
  have leadsFirst := midway.overlays.leads_before leadsBefore elsewhere
  obtain ⟨_, rfl⟩ := otherReads.leads.deterministic leadsFirst
  exact separate.apart other otherMem entry entryMem different
    (otherReads.target?_eq.trans readsFirst.target?_eq.symm)

/-- The step of the loop that succeeds. -/
theorem cleaned (midway : Midway cleanup first entries reserved start spots (entry :: rest) before)
    (separate : Separate first entries reserved) (continues : after.console.Continues before.console)
    {place : Place} {name text : String} {contents : File}
    (cleans : Cleans cleanup.charset entry.1 entry.2 before.disk after.disk place name text contents) :
    Midway cleanup first entries reserved start ((place ++ [name]) :: spots) rest after := by
  have entryMem := midway.subset entry List.mem_cons_self
  obtain ⟨notLater, restNodup⟩ := List.nodup_cons.mp midway.nodup
  have spotEq : first.entryPlace? entry.1 = some (place ++ [name]) :=
    Disk.entryPlace?_eq_some_iff.mpr ⟨place, name,
      midway.overlays.holder_before (Path.parse_proper entry.1) cleans.held, rfl⟩
  constructor
  case subset => exact fun other mem => midway.subset other (List.mem_cons_of_mem entry mem)
  case nodup => exact restNodup
  case overlays => exact cleans.overwrites.overlays midway.overlays
  case owned =>
    intro spot mem
    rcases List.mem_cons.mp mem with rfl | old
    · exact Or.inr ⟨entry, entryMem, notLater, spotEq⟩
    · rcases midway.owned spot old with held | ⟨other, otherMem, done, otherEq⟩
      · exact Or.inl held
      · exact Or.inr ⟨other, otherMem, fun later => done (List.mem_cons_of_mem entry later), otherEq⟩
  case untouched =>
    intro other mem links goal leads goalMem
    by_cases same : goal = place ++ [name]
    · subst goal
      exact midway.not_leads_cleaned separate cleans mem links leads
    · have leadsBefore : before.disk.Leads (.parse other.1) links goal := by
        rw [Disk.Leads, ← cleans.overwrites.here_eq]
        exact cleans.overwrites.route_before leads same
      exact midway.untouched other (List.mem_cons_of_mem entry mem) links goal leadsBefore
        (List.mem_of_ne_of_mem same goalMem)
  case settled =>
    intro other mem done
    by_cases same : other = entry
    · subst other
      obtain ⟨_, _, _, _, _, readEq⟩ := midway.reads_first cleans.read_eq
      exact ⟨_, spotEq, Or.inr ⟨text, contents, readEq, cleans.encoded, cleans.overwrites.look_spot⟩⟩
    · obtain ⟨spot, otherEq, old⟩ := midway.settled other mem (by simp [same, done])
      have apart := separate.entryPlace_ne mem entryMem same otherEq spotEq
      refine ⟨spot, otherEq, ?_⟩
      rw [cleans.overwrites.look_of_ne apart]
      exact old.imp_left fun kept => ⟨kept.1, kept.2.mono (.refl _) continues⟩
  case continues => exact continues.trans midway.continues

end Midway

/-- Cleaning the files of findings overwrites their entries and nothing else, and settles every one
of them. -/
theorem perform_apply_settled {cleanup : Cleanup} {findings : Findings} {first : Disk}
    {reserved : List Place} {before after : RunState} {result : Result}
    (separate : Separate first findings.entries reserved)
    (distinct : findings.entries.Nodup)
    (overlays : Disk.Overlays before.disk first reserved)
    (untouched : ∀ entry ∈ findings.entries, ∀ links goal,
      before.disk.Leads (.parse entry.1) links goal → goal ∉ reserved)
    (applied : (cleanup.apply findings).perform before = (.ok result, after)) :
    ∃ spots, Midway cleanup first findings.entries reserved before.console spots [] after := by
  have sorted := findings.perm_byPath
  refine Action.perform_foldlM_invariant
    (fun pending _ state => ∃ spots,
      Midway cleanup first findings.entries reserved before.console spots pending state) ?_ ?_ applied
  · rintro entry rest result middle next later ⟨spots, midway⟩ stepped
    obtain ⟨continues, _, ⟨agrees, alarmed, _⟩ | ⟨_, place, name, text, contents, cleans⟩⟩ :=
      perform_cleanOne_cases stepped
    · exact ⟨spots, midway.failed separate continues agrees alarmed⟩
    · exact ⟨_, midway.cleaned separate continues cleans⟩
  · refine ⟨reserved, fun entry mem => sorted.mem_iff.mp mem, sorted.nodup_iff.mpr distinct, overlays,
      fun spot mem => Or.inl mem, fun entry mem => untouched entry (sorted.mem_iff.mp mem), ?_,
      .refl _⟩
    intro entry mem done
    exact absurd (sorted.mem_iff.mpr mem) done

end StringAudit.Cleanup
