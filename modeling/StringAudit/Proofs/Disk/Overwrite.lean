import StringAudit.Proofs.Disk.Target

/-!
# Overwriting entries by files

Files are put over entries; all other entries stay.  A path that passed an overwritten entry was a
path through a link, and its way ends there now.  So a path that does not end at a new file goes
where it went before, and one that does end at it went where the old entry led, if anywhere.
-/

namespace StringAudit.Disk

/-! ## Disks under new files -/

/-- A disk comes from an earlier one by files that stand at some spots now, whatever stood there
before. -/
structure Overlays (after before : Disk) (spots : List Place) : Prop where
  look_eq : ∀ place, place ∉ spots → after.look place = before.look place
  file : ∀ spot ∈ spots, ∃ contents, after.look spot = some (.file contents)
  here_eq : after.here = before.here
  refusals_eq : after.refusals = before.refusals

namespace Overlays

variable {after before : Disk} {spots : List Place}

theorem of_agrees {disk other : Disk} (agrees : disk.Agrees other) : Overlays disk other [] where
  look_eq := fun place _ => agrees.look_eq place
  file := fun _ mem => absurd mem List.not_mem_nil
  here_eq := agrees.here_eq
  refusals_eq := agrees.refusals_eq

theorem leaf (change : Overlays after before spots) {spot : Place} (mem : spot ∈ spots) :
    after.look spot ≠ some .folder := by
  obtain ⟨contents, found⟩ := change.file spot mem
  simp [found]

/-- Directories do not stand at the spots. -/
theorem notMem_of_folder (change : Overlays after before spots) {place : Place}
    (there : after.look place = some .folder) : place ∉ spots :=
  fun mem => change.leaf mem there

/-- Directories have been there before. -/
theorem folder_before (change : Overlays after before spots) {place : Place}
    (there : after.look place = some .folder) : before.look place = some .folder :=
  change.look_eq place (change.notMem_of_folder there) ▸ there

/-- Links have been there before. -/
theorem link_before (change : Overlays after before spots) {place : Place} {target : String}
    (found : after.look place = some (.link target)) : before.look place = some (.link target) := by
  have elsewhere : place ∉ spots := by
    intro mem
    obtain ⟨contents, file⟩ := change.file place mem
    rw [found, Option.some.injEq] at file
    cases file
  exact change.look_eq place elsewhere ▸ found

/-- A way that does not end at a new file has been there before. -/
theorem route_before (change : Overlays after before spots) {place goal : Place}
    {pieces : List String} {links : Nat} (route : Route after.look place pieces links goal)
    (elsewhere : goal ∉ spots) : Route before.look place pieces links goal := by
  induction route with
  | done place => exact .done place
  | stay there dot _ ih => exact .stay (change.folder_before there) dot (ih elsewhere)
  | up there dots _ ih => exact .up (change.folder_before there) dots (ih elsewhere)
  | @enter place goal piece rest links leaf there step found notLink onward ih =>
      have apart : place ++ [piece] ∉ spots := by
        intro mem
        obtain ⟨_, _, rfl⟩ := onward.eq_nil_of_leaf (change.leaf mem)
        exact elsewhere mem
      have foundBefore := change.look_eq _ apart ▸ found
      exact .enter (change.folder_before there) step foundBefore notLink (ih elsewhere)
  | link there step found _ ih =>
      exact .link (change.folder_before there) step (change.link_before found) (ih elsewhere)

theorem start_ne {holder place : Place} {name : String} (away : place ≠ holder ++ [name])
    (path : String) : start place path ≠ holder ++ [name] := by
  rw [start]
  split
  · exact (List.append_ne_nil_of_right_ne_nil holder (List.cons_ne_nil name [])).symm
  · exact away

/-- A way that ends at a new file went on, before, from the old entry. -/
theorem route_before_iff {holder : Place} {name : String} (change : Overlays after before spots)
    (mem : holder ++ [name] ∈ spots) {place : Place} {pieces : List String} {links : Nat}
    (route : Route after.look place pieces links (holder ++ [name]))
    (away : place ≠ holder ++ [name]) (total : Nat) (goal : Place) :
    Route before.look place pieces total goal ↔
      ∃ onward, total = links + onward ∧ Route before.look holder [name] onward goal := by
  have folder_ne : ∀ {other}, after.look other = some .folder → other ≠ holder ++ [name] := by
    rintro other there rfl
    exact change.leaf mem there
  generalize spotEq : holder ++ [name] = spot at route away
  induction route generalizing total goal with
  | done place => exact absurd rfl away
  | stay there dot _ ih =>
      subst dot
      rw [Route.stay_iff (change.folder_before there)]
      exact ih total goal spotEq away
  | up there dots _ ih =>
      subst dots spotEq
      rw [Route.up_iff (change.folder_before there)]
      exact ih total goal rfl (folder_ne (look_dropLast there))
  | @enter place _ piece rest links leaf there step found notLink onward ih =>
      subst spotEq
      by_cases new : place ++ [piece] ∈ spots
      · obtain ⟨rfl, rfl, same⟩ := onward.eq_nil_of_leaf (change.leaf new)
        obtain ⟨rfl, pieceEq⟩ := List.append_inj' same rfl
        obtain rfl := List.singleton_inj.mp pieceEq
        simp
      · have foundBefore := change.look_eq _ new ▸ found
        rw [Route.enter_iff (change.folder_before there) step foundBefore notLink]
        exact ih total goal rfl fun same => new (same ▸ mem)
  | @link place _ piece target rest links there step found _ ih =>
      subst spotEq
      rw [Route.link_iff (change.folder_before there) step (change.link_before found)]
      have awayStart := start_ne (folder_ne there) target
      constructor
      · rintro ⟨fewer, rfl, onward⟩
        obtain ⟨further, rfl, tail⟩ := (ih fewer goal rfl awayStart).mp onward
        exact ⟨further, by omega, tail⟩
      · rintro ⟨further, rfl, tail⟩
        exact ⟨_, by omega, (ih _ goal rfl awayStart).mpr ⟨further, rfl, tail⟩⟩

theorem leads_before (change : Overlays after before spots) {p : Path} {links : Nat} {goal : Place}
    (leads : after.Leads p links goal) (elsewhere : goal ∉ spots) : before.Leads p links goal := by
  rw [Leads, ← change.here_eq]
  exact change.route_before leads elsewhere

/-- A path names the entry that it named before. -/
theorem holder_before (change : Overlays after before spots) {p : Path} (proper : p.Proper)
    {place : Place} {name : String} (held : after.holder p = .ok (place, some name)) :
    before.holder p = .ok (place, some name) := by
  obtain ⟨front, namesEq, notUp, short, ⟨links, few, route⟩, there⟩ :=
    (holder_eq_ok_iff proper).mp held
  have routeBefore := change.route_before route (change.notMem_of_folder there)
  rw [change.here_eq] at routeBefore
  exact (holder_eq_ok_iff proper).mpr
    ⟨front, namesEq, notUp, short, ⟨links, few, routeBefore⟩, change.folder_before there⟩

end Overlays

theorem Agrees.overlays {last after before : Disk} {spots : List Place} (agrees : last.Agrees after)
    (change : Overlays after before spots) : Overlays last before spots where
  look_eq := fun place elsewhere => (agrees.look_eq place).trans (change.look_eq place elsewhere)
  file := fun spot mem => agrees.look_eq spot ▸ change.file spot mem
  here_eq := agrees.here_eq.trans change.here_eq
  refusals_eq := agrees.refusals_eq.trans change.refusals_eq

/-! ## Disks under files instead of files -/

/-- A disk comes from an earlier one by files that stand at some spots now, and the entries there
led to what is no directory. -/
structure Refiles (after before : Disk) (spots : List Place) : Prop extends
    Overlays after before spots where
  old : ∀ spot ∈ spots, ∃ links goal, before.EntryLeads spot links goal ∧
    before.look goal ≠ some .folder

namespace Refiles

variable {after before : Disk} {spots : List Place}

/-- Directories are still there. -/
theorem folder_after (refiles : Refiles after before spots) {place : Place}
    (there : before.look place = some .folder) : after.look place = some .folder := by
  have elsewhere : place ∉ spots := by
    intro mem
    obtain ⟨_, _, entryLeads, leaf⟩ := refiles.old place mem
    exact entryLeads.leaf leaf there
  rw [refiles.look_eq place elsewhere, there]

/-- A way from before either is still there or ends at a new file now, and has led where the old
entry led. -/
theorem route_after (refiles : Refiles after before spots) {place goal : Place}
    {pieces : List String} {links : Nat} (route : Route before.look place pieces links goal) :
    Route after.look place pieces links goal ∨
      ∃ spot ∈ spots, ∃ fewer ≤ links, Route after.look place pieces fewer spot ∧
        ∃ further, before.EntryLeads spot further goal := by
  induction route with
  | done place => exact Or.inl (.done place)
  | stay there dot _ ih =>
      rcases ih with kept | ⟨spot, mem, fewer, few, ends, leads⟩
      · exact Or.inl (.stay (refiles.folder_after there) dot kept)
      · exact Or.inr ⟨spot, mem, fewer, few, .stay (refiles.folder_after there) dot ends, leads⟩
  | up there dots _ ih =>
      rcases ih with kept | ⟨spot, mem, fewer, few, ends, leads⟩
      · exact Or.inl (.up (refiles.folder_after there) dots kept)
      · exact Or.inr ⟨spot, mem, fewer, few, .up (refiles.folder_after there) dots ends, leads⟩
  | @enter place goal piece rest links found there step foundEq notLink onward ih =>
      by_cases new : place ++ [piece] ∈ spots
      · obtain ⟨contents, newFile⟩ := refiles.file _ new
        obtain ⟨further, target, entryLeads, leaf⟩ := refiles.old _ new
        obtain ⟨rfl, rfl, rfl⟩ := onward.eq_nil_of_leaf (entryLeads.leaf leaf)
        exact Or.inl (.enter (refiles.folder_after there) step newFile (by simp) (.done _))
      · have foundAfter := (refiles.look_eq _ new).trans foundEq
        rcases ih with kept | ⟨spot, mem, fewer, few, ends, leads⟩
        · exact Or.inl (.enter (refiles.folder_after there) step foundAfter notLink kept)
        · exact Or.inr ⟨spot, mem, fewer, few,
            .enter (refiles.folder_after there) step foundAfter notLink ends, leads⟩
  | @link place goal piece text rest links there step found onward ih =>
      by_cases new : place ++ [piece] ∈ spots
      · obtain ⟨contents, newFile⟩ := refiles.file _ new
        obtain ⟨further, target, ⟨holder, name, spotEq, last⟩, leaf⟩ := refiles.old _ new
        obtain ⟨rfl, pieceEq⟩ := List.append_inj' spotEq rfl
        obtain rfl := List.singleton_inj.mp pieceEq
        -- the old entry is this link, so that the rest of the way starts where it led
        obtain ⟨_, _, tail⟩ := (Route.link_iff there step found).mp last
        obtain ⟨middle, _, _, _, along, beyond⟩ := onward.split
        rw [List.append_nil] at tail
        obtain ⟨_, rfl⟩ := along.deterministic tail
        obtain ⟨rfl, _, rfl⟩ := beyond.eq_nil_of_leaf leaf
        exact Or.inr ⟨_, new, 0, Nat.zero_le _,
          .enter (refiles.folder_after there) step newFile (by simp) (.done _),
          further, place, piece, rfl, last⟩
      · have foundAfter := (refiles.look_eq _ new).trans found
        rcases ih with kept | ⟨spot, mem, fewer, few, ends, leads⟩
        · exact Or.inl (.link (refiles.folder_after there) step foundAfter kept)
        · exact Or.inr ⟨spot, mem, fewer + 1, Nat.succ_le_succ few,
            .link (refiles.folder_after there) step foundAfter ends, leads⟩

/-- The ways to directories are the same. -/
theorem route_folder_iff (refiles : Refiles after before spots) {place goal : Place}
    {pieces : List String} {links : Nat} :
    Route after.look place pieces links goal ∧ after.look goal = some .folder ↔
      Route before.look place pieces links goal ∧ before.look goal = some .folder := by
  constructor
  · rintro ⟨route, there⟩
    exact ⟨refiles.route_before route (refiles.notMem_of_folder there), refiles.folder_before there⟩
  · rintro ⟨route, there⟩
    refine ⟨?_, refiles.folder_after there⟩
    rcases refiles.route_after route with kept | ⟨spot, mem, _, _, _, _, leads⟩
    · exact kept
    · obtain ⟨_, target, entryLeads, leaf⟩ := refiles.old spot mem
      obtain rfl := entryLeads.deterministic leads
      exact absurd there leaf

end Refiles

/-! ## Disks under one new file -/

/-- A disk comes from an earlier one by a file that stands at one spot now, whatever stood there
before. -/
structure Overwrites (after before : Disk) (spot : Place) (contents : File) : Prop where
  look_eq : ∀ place,
    after.look place = if place = spot then some (.file contents) else before.look place
  here_eq : after.here = before.here
  refusals_eq : after.refusals = before.refusals

namespace Overwrites

variable {after before : Disk} {spot : Place} {contents : File}

theorem look_spot (change : Overwrites after before spot contents) :
    after.look spot = some (.file contents) := by
  rw [change.look_eq, if_pos rfl]

theorem look_of_ne (change : Overwrites after before spot contents) {place : Place}
    (elsewhere : place ≠ spot) : after.look place = before.look place := by
  rw [change.look_eq, if_neg elsewhere]

/-- One more spot. -/
theorem overlays {first : Disk} {spots : List Place} (change : Overwrites after before spot contents)
    (earlier : Overlays before first spots) : Overlays after first (spot :: spots) where
  look_eq := by
    intro place elsewhere
    rw [List.mem_cons, not_or] at elsewhere
    rw [change.look_of_ne elsewhere.1, earlier.look_eq place elsewhere.2]
  file := by
    intro place mem
    by_cases same : place = spot
    · exact ⟨contents, same ▸ change.look_spot⟩
    · rw [change.look_of_ne same]
      exact earlier.file place (List.mem_of_ne_of_mem same mem)
  here_eq := change.here_eq.trans earlier.here_eq
  refusals_eq := change.refusals_eq.trans earlier.refusals_eq

theorem overlays_self (change : Overwrites after before spot contents) :
    Overlays after before [spot] :=
  change.overlays (.of_agrees (.refl before))

/-- Directories do not stand at the spot. -/
theorem ne_of_folder (change : Overwrites after before spot contents) {place : Place}
    (there : after.look place = some .folder) : place ≠ spot :=
  List.ne_of_not_mem_cons (change.overlays_self.notMem_of_folder there)

theorem route_before (change : Overwrites after before spot contents) {place goal : Place}
    {pieces : List String} {links : Nat} (route : Route after.look place pieces links goal)
    (elsewhere : goal ≠ spot) : Route before.look place pieces links goal :=
  change.overlays_self.route_before route fun mem => elsewhere (List.mem_singleton.mp mem)

theorem route_before_iff {holder : Place} {name : String}
    (change : Overwrites after before (holder ++ [name]) contents) {place : Place}
    {pieces : List String} {links : Nat}
    (route : Route after.look place pieces links (holder ++ [name]))
    (away : place ≠ holder ++ [name]) (total : Nat) (goal : Place) :
    Route before.look place pieces total goal ↔
      ∃ onward, total = links + onward ∧ Route before.look holder [name] onward goal :=
  change.overlays_self.route_before_iff List.mem_cons_self route away total goal

end Overwrites

end StringAudit.Disk
