import StringAudit.Proofs.Action
import StringAudit.Proofs.Disk.Path
import StringAudit.Proofs.Disk.Route

/-!
# Where a path leads

The names of a parsed path are the pieces of a route.  `holder` goes all names but the last one, so
that a path that leads to a file names an entry: the entry in its holder from which the rest of the
route goes on.  That entry is what replacing the file replaces, while the file that is read may stand
elsewhere, behind links.
-/

namespace StringAudit

/-- The place where the names of a path start. -/
def Path.base (p : Path) (here : Place) : Place :=
  if p.anchor = "" then here else []

namespace Disk

/-- The names of a path lead to a goal through a number of links. -/
def Leads (disk : Disk) (p : Path) (links : Nat) (goal : Place) : Prop :=
  Route disk.look (p.base disk.here) p.names links goal

theorem Agrees.leads_iff {disk other : Disk} (agrees : disk.Agrees other) {p : Path} {links : Nat}
    {goal : Place} : disk.Leads p links goal ↔ other.Leads p links goal := by
  rw [Leads, Leads, funext agrees.look_eq, agrees.here_eq]

/-- The directory in which a path names an entry, and the name; nothing if it names none. -/
def held? (disk : Disk) (path : String) : Option (Place × String) :=
  (disk.holder (.parse path)).toOption.bind fun held => held.2.map (held.1, ·)

/-- The place of the entry that a path names. -/
def entryPlace? (disk : Disk) (path : String) : Option Place :=
  (disk.held? path).map fun held => held.1 ++ [held.2]

/-- The place to which the entry leads that a path names. -/
def target? (disk : Disk) (path : String) : Option Place :=
  (disk.held? path).bind fun held => (follow disk.root false maxLinks held.1 [held.2]).toOption

/-! ## Resolving -/

theorem entry_eq_ok_iff {disk : Disk} {path : String} {place : Place} {entry : Entry} :
    disk.entry path = .ok (place, entry) ↔
      disk.resolve path = .ok place ∧ disk.root.at? place = some entry := by
  rw [Disk.entry, Except.bind_eq_ok_iff]
  constructor
  · rintro ⟨goal, resolved, found⟩
    split at found
    · rename_i other entryEq
      cases found
      exact ⟨resolved, entryEq⟩
    · cases found
  · rintro ⟨resolved, entryEq⟩
    refine ⟨place, resolved, ?_⟩
    rw [entryEq]
    rfl

theorem isDirectory_eq_true_iff {disk : Disk} {path : String} :
    disk.isDirectory path = true ↔
      isUsable path = true ∧
        ∃ place, disk.resolve path = .ok place ∧ disk.look place = some .folder := by
  have folder : (∃ place inner, disk.entry path = .ok (place, .folder inner)) ↔
      ∃ place, disk.resolve path = .ok place ∧ disk.look place = some .folder := by
    simp only [entry_eq_ok_iff, look, Directory.look_eq_folder_iff, exists_and_left]
  rw [isDirectory, Bool.and_eq_true, ← folder]
  refine and_congr_right fun _ => ?_
  cases disk.entry path with
  | error cause => simp
  | ok found =>
      obtain ⟨place, entry⟩ := found
      cases entry <;> simp

/-- A parsed path leads where its names lead. -/
theorem resolve_text_eq_ok_iff {disk : Disk} {p : Path} (proper : p.Proper) {goal : Place} :
    disk.resolve p.text = .ok goal ↔
      p.text.utf8ByteSize ≤ maxPathBytes ∧ (∃ links ≤ maxLinks, disk.Leads p links goal) ∧
        (p.names = [] → disk.look goal = some .folder) := by
  rw [resolve_eq_ok_iff, steps_text proper, start_text proper]
  change _ ∧ _ ∧ (∃ links ≤ maxLinks, Route disk.look (p.base disk.here) _ links goal) ↔ _
  by_cases nameless : p.names = []
  · simp only [nameless, if_true, Route.dot_iff, Leads, forall_const]
    constructor
    · rintro ⟨_, short, links, few, rfl, rfl, there⟩
      exact ⟨short, ⟨0, few, .done _⟩, there⟩
    · rintro ⟨short, ⟨links, few, route⟩, there⟩
      cases route
      exact ⟨proper.text_ne_empty, short, 0, few, rfl, rfl, there⟩
  · simp only [nameless, if_false, false_implies, and_true, Leads, proper.text_ne_empty, ne_eq,
      not_false_eq_true, true_and]

/-- The holder of a path is where all of its names but the last one lead. -/
theorem holder_eq_ok_iff {disk : Disk} {p : Path} (proper : p.Proper) {place : Place} {name : String} :
    disk.holder p = .ok (place, some name) ↔
      ∃ front, p.names = front ++ [name] ∧ name ≠ ".." ∧
        p.parent.text.utf8ByteSize ≤ maxPathBytes ∧
        (∃ links ≤ maxLinks, Route disk.look (p.base disk.here) front links place) ∧
        disk.look place = some .folder := by
  have resolved : ∀ goal, disk.resolve p.parent.text = .ok goal ↔
      p.parent.text.utf8ByteSize ≤ maxPathBytes ∧
        (∃ links ≤ maxLinks, Route disk.look (p.base disk.here) p.names.dropLast links goal) ∧
        (p.names.dropLast = [] → disk.look goal = some .folder) :=
    fun goal => resolve_text_eq_ok_iff proper.parent
  rw [holder, Except.bind_eq_ok_iff]
  constructor
  · rintro ⟨goal, resolvedEq, held⟩
    split at held
    · rename_i d thereEq
      obtain ⟨rfl, named⟩ : goal = place ∧
          (if p.names = [] ∨ p.name = ".." then none else some p.name) = some name := by
        simpa using Except.ok.inj held
      obtain ⟨short, way, _⟩ := (resolved goal).mp resolvedEq
      by_cases endsUp : p.names = [] ∨ p.name = ".."
      · rw [if_pos endsUp] at named
        cases named
      · rw [if_neg endsUp, Option.some.injEq] at named
        rw [not_or] at endsUp
        have namesEq : p.names = p.names.dropLast ++ [name] := by
          rw [← named, Path.name, List.getLastD_eq_getLast?, List.getLast?_eq_some_getLast endsUp.1,
            Option.getD_some, List.dropLast_concat_getLast]
        exact ⟨_, namesEq, named ▸ endsUp.2, short, way,
          (disk.root.look_eq_folder_iff goal).mpr ⟨d, thereEq⟩⟩
    · cases held
  · rintro ⟨front, namesEq, notUp, short, way, there⟩
    obtain ⟨d, thereEq⟩ := (disk.root.look_eq_folder_iff place).mp there
    refine ⟨place, (resolved place).mpr ⟨short, ?_, fun _ => there⟩, ?_⟩
    · rwa [namesEq, List.dropLast_concat]
    · simp only [thereEq, Path.name, namesEq, List.getLastD_concat, List.append_eq_nil_iff,
        List.cons_ne_nil, and_false, notUp, or_self, if_false]
      rfl

theorem intercalate_dropLast_le {names : List String} (named : names ≠ []) :
    ("/".intercalate names.dropLast).utf8ByteSize ≤ ("/".intercalate names).utf8ByteSize := by
  by_cases single : names.dropLast = []
  · rw [single, String.intercalate_nil]
    exact Nat.zero_le _
  · have namesEq := List.dropLast_concat_getLast named
    have longer : "/".intercalate names =
        "/".intercalate names.dropLast ++ "/" ++ "/".intercalate [names.getLast named] := by
      rw [← String.intercalate_append_of_ne_nil single (List.cons_ne_nil _ _), namesEq]
    rw [longer, String.append_assoc, String.utf8ByteSize_append]
    exact Nat.le_add_right _ _

/-- The text of a path is no shorter than that of its parent. -/
theorem parent_text_le {p : Path} (proper : p.Proper) (named : p.names ≠ []) :
    p.parent.text.utf8ByteSize ≤ p.text.utf8ByteSize := by
  have whole : p.text = p.anchor ++ "/".intercalate p.names := by
    rw [Path.text, if_neg fun both => named both.2]
  rw [Path.text]
  split
  · have nonempty : p.text.utf8ByteSize ≠ 0 := fun zero =>
      proper.text_ne_empty (String.utf8ByteSize_eq_zero_iff.mp zero)
    exact Nat.one_le_iff_ne_zero.mpr nonempty
  · rw [whole, String.utf8ByteSize_append, String.utf8ByteSize_append]
    exact Nat.add_le_add_left (intercalate_dropLast_le named) _

/-- A path that leads to a file leads there through the entry that it names. -/
theorem exists_holder_of_leads {disk : Disk} {p : Path} (proper : p.Proper)
    (short : p.text.utf8ByteSize ≤ maxPathBytes) {links : Nat} {goal : Place}
    (few : links ≤ maxLinks) (leads : disk.Leads p links goal) (named : p.names ≠ [])
    (leaf : disk.look goal ≠ some .folder) :
    ∃ place name m n, links = m + n ∧ disk.holder p = .ok (place, some name) ∧
      Route disk.look (p.base disk.here) p.names.dropLast m place ∧
      Route disk.look place [name] n goal := by
  have namesEq := List.dropLast_concat_getLast named
  have whole : Route disk.look (p.base disk.here) (p.names.dropLast ++ [p.names.getLast named])
      links goal :=
    namesEq.symm ▸ leads
  obtain ⟨place, m, n, rfl, front, last⟩ := whole.split
  have there := last.folder_of_cons
  have notUp : p.names.getLast named ≠ ".." := by
    intro up
    rw [up, Route.up_iff there] at last
    cases last
    exact leaf (look_dropLast there)
  refine ⟨place, p.names.getLast named, m, n, rfl, ?_, front, last⟩
  exact (holder_eq_ok_iff proper).mpr ⟨_, namesEq.symm, notUp,
    Nat.le_trans (parent_text_le proper named) short, ⟨m, by omega, front⟩, there⟩

/-! ## The entry of a path and its target -/

/-- The entry at a place leads to a goal through a number of links. -/
def EntryLeads (disk : Disk) (spot : Place) (links : Nat) (goal : Place) : Prop :=
  ∃ holder name, spot = holder ++ [name] ∧ Route disk.look holder [name] links goal

namespace EntryLeads

variable {disk : Disk} {spot goal : Place} {links : Nat}

/-- An entry that leads to what is no directory has a name, and it is where it leads or a link. -/
theorem cases_of_leaf (leads : disk.EntryLeads spot links goal) (leaf : disk.look goal ≠ some .folder) :
    (∃ holder name, spot = holder ++ [name] ∧ IsStep name) ∧
      ((goal = spot ∧ disk.look spot ≠ none) ∨ ∃ target, disk.look spot = some (.link target)) := by
  obtain ⟨holder, name, rfl, route⟩ := leads
  cases route with
  | stay holderThere _ onward =>
      cases onward
      exact absurd holderThere leaf
  | up holderThere _ onward =>
      cases onward
      exact absurd (look_dropLast holderThere) leaf
  | enter _ step found _ onward =>
      cases onward
      exact ⟨⟨holder, name, rfl, step⟩, Or.inl ⟨rfl, by simp [found]⟩⟩
  | link _ step found => exact ⟨⟨holder, name, rfl, step⟩, Or.inr ⟨_, found⟩⟩

/-- It is no directory. -/
theorem leaf (leads : disk.EntryLeads spot links goal) (leaf : disk.look goal ≠ some .folder) :
    disk.look spot ≠ some .folder := by
  obtain ⟨_, ⟨rfl, _⟩ | ⟨target, found⟩⟩ := leads.cases_of_leaf leaf
  · exact leaf
  · simp [found]

/-- Something stands there. -/
theorem look_ne_none (leads : disk.EntryLeads spot links goal) (leaf : disk.look goal ≠ some .folder) :
    disk.look spot ≠ none := by
  obtain ⟨_, ⟨_, there⟩ | ⟨target, found⟩⟩ := leads.cases_of_leaf leaf
  · exact there
  · simp [found]

theorem isStep {place : Place} {name : String} (leads : disk.EntryLeads (place ++ [name]) links goal)
    (leaf : disk.look goal ≠ some .folder) : IsStep name := by
  obtain ⟨⟨_, _, same, step⟩, _⟩ := leads.cases_of_leaf leaf
  rwa [List.singleton_inj.mp (List.append_inj' same rfl).2]

/-- A file leads to itself. -/
theorem eq_of_file {contents : File} (leads : disk.EntryLeads spot links goal)
    (leaf : disk.look goal ≠ some .folder) (file : disk.look spot = some (.file contents)) :
    goal = spot := by
  obtain ⟨_, ⟨same, _⟩ | ⟨target, found⟩⟩ := leads.cases_of_leaf leaf
  · exact same
  · rw [file, Option.some.injEq] at found
    cases found

theorem deterministic {first second : Place} {links' : Nat} (leads : disk.EntryLeads spot links first)
    (other : disk.EntryLeads spot links' second) : first = second := by
  obtain ⟨holder, name, rfl, route⟩ := leads
  obtain ⟨holder', name', same, route'⟩ := other
  obtain ⟨rfl, nameEq⟩ := List.append_inj' same rfl
  obtain rfl := List.singleton_inj.mp nameEq
  exact (route.deterministic route').2

end EntryLeads

theorem held?_eq_some_iff {disk : Disk} {path : String} {place : Place} {name : String} :
    disk.held? path = some (place, name) ↔ disk.holder (.parse path) = .ok (place, some name) := by
  rw [held?]
  cases disk.holder (.parse path) with
  | error cause => simp [Except.toOption]
  | ok held =>
      obtain ⟨holder, named⟩ := held
      cases named <;> simp [Except.toOption]

theorem entryPlace?_eq_some_iff {disk : Disk} {path : String} {spot : Place} :
    disk.entryPlace? path = some spot ↔
      ∃ place name, disk.holder (.parse path) = .ok (place, some name) ∧ place ++ [name] = spot := by
  simp only [entryPlace?, Option.map_eq_some_iff, Prod.exists, held?_eq_some_iff]

theorem target?_eq_some_iff {disk : Disk} {path : String} {goal : Place} :
    disk.target? path = some goal ↔
      ∃ place name, disk.holder (.parse path) = .ok (place, some name) ∧
        ∃ links ≤ maxLinks, Route disk.look place [name] links goal := by
  have followed : ∀ place name,
      (follow disk.root false maxLinks place [name]).toOption = some goal ↔
        ∃ links ≤ maxLinks, Route disk.look place [name] links goal := by
    intro place name
    refine Iff.trans ?_ follow_eq_ok_iff
    cases follow disk.root false maxLinks place [name] <;> simp [Except.toOption]
  simp only [target?, Option.bind_eq_some_iff, Prod.exists, held?_eq_some_iff, followed]

/-- Paths that name the same entry lead to the same place. -/
theorem target?_eq_of_entryPlace?_eq {disk : Disk} {path other : String} {spot : Place}
    (first : disk.entryPlace? path = some spot) (second : disk.entryPlace? other = some spot) :
    disk.target? path = disk.target? other := by
  obtain ⟨⟨place, name⟩, held, rfl⟩ := Option.map_eq_some_iff.mp first
  obtain ⟨⟨place', name'⟩, held', same⟩ := Option.map_eq_some_iff.mp second
  obtain ⟨rfl, nameEq⟩ := List.append_inj' same rfl
  obtain rfl := List.singleton_inj.mp nameEq
  rw [target?, held, target?, held']

end Disk

end StringAudit
