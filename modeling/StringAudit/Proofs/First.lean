import StringAudit.Proofs.Pool

/-!
# The first failure of a loop

Working on the items of a list one after the other fails exactly if one of the items fails, and then it
fails as the first of them does.
-/

namespace StringAudit

/-- An item is the first one of a list with a property; `front` are the items before it. -/
structure IsFirst {α : Type} (p : α → Prop) (items front : List α) (item : α) : Prop where
  split : ∃ back, items = front ++ item :: back
  before : ∀ other ∈ front, ¬ p other
  holds : p item

namespace IsFirst

variable {α : Type} {p : α → Prop} {item head : α} {items front tail : List α}

theorem mem (first : IsFirst p items front item) : item ∈ items := by
  obtain ⟨back, rfl⟩ := first.split
  exact List.mem_append_right front List.mem_cons_self

theorem not_nil : ¬ IsFirst p [] front item :=
  fun first => absurd first.mem List.not_mem_nil

theorem cons_iff :
    IsFirst p (head :: tail) front item ↔
      (p head ∧ front = [] ∧ item = head) ∨
        ∃ rest, ¬ p head ∧ front = head :: rest ∧ IsFirst p tail rest item := by
  constructor
  · rintro ⟨⟨back, split⟩, before, holds⟩
    cases front with
    | nil =>
        obtain ⟨rfl, rfl⟩ := List.cons.inj split
        exact Or.inl ⟨holds, rfl, rfl⟩
    | cons other rest =>
        obtain ⟨rfl, rfl⟩ := List.cons.inj split
        obtain ⟨not, others⟩ := List.forall_mem_cons.mp before
        exact Or.inr ⟨rest, not, rfl, ⟨back, rfl⟩, others, holds⟩
  · rintro (⟨holds, rfl, rfl⟩ | ⟨rest, not, rfl, ⟨back, rfl⟩, before, holds⟩)
    · exact ⟨⟨tail, rfl⟩, fun _ mem => absurd mem List.not_mem_nil, holds⟩
    · exact ⟨⟨back, rfl⟩, List.forall_mem_cons.mpr ⟨not, before⟩, holds⟩

/-- There is a first item with a property if there is any. -/
theorem exists_of_mem (mem : item ∈ items) (holds : p item) :
    ∃ front first, IsFirst p items front first := by
  induction items with
  | nil => exact absurd mem List.not_mem_nil
  | cons head tail ih =>
      by_cases now : p head
      · exact ⟨[], head, cons_iff.mpr (Or.inl ⟨now, rfl, rfl⟩)⟩
      · have later : item ∈ tail :=
          (List.mem_cons.mp mem).resolve_left fun same => now (same ▸ holds)
        obtain ⟨front, first, found⟩ := ih later
        exact ⟨head :: front, first, cons_iff.mpr (Or.inr ⟨front, now, rfl, found⟩)⟩

/-- An item that passes a filter is still the first one behind it. -/
theorem filter {q : α → Bool} (first : IsFirst p items front item) (passes : q item = true) :
    IsFirst p (items.filter q) (front.filter q) item where
  split := by
    obtain ⟨back, rfl⟩ := first.split
    exact ⟨back.filter q, by rw [List.filter_append, List.filter_cons_of_pos passes]⟩
  before := fun other mem => first.before other (List.mem_filter.mp mem).1
  holds := first.holds

/-- Among items in order, the first one with a property is the one with it before which none has it. -/
theorem exists_iff_of_pairwise {r : α → α → Prop} (ordered : items.Pairwise r)
    (asymm : ∀ a b, r a b → ¬ r b a) :
    (∃ front, IsFirst p items front item) ↔
      item ∈ items ∧ p item ∧ ∀ other ∈ items, r other item → ¬ p other := by
  constructor
  · rintro ⟨front, first⟩
    refine ⟨first.mem, first.holds, fun other mem earlier => ?_⟩
    obtain ⟨back, rfl⟩ := first.split
    obtain ⟨behind, -⟩ := List.pairwise_cons.mp (List.pairwise_append.mp ordered).2.1
    rcases List.mem_append.mp mem with inFront | here
    · exact first.before other inFront
    rcases List.mem_cons.mp here with rfl | inBack
    · exact absurd earlier (asymm other other earlier)
    · exact absurd earlier (asymm item other (behind other inBack))
  · rintro ⟨mem, holds, least⟩
    obtain ⟨front, found, first⟩ := exists_of_mem mem holds
    suffices same : found = item from ⟨front, same ▸ first⟩
    obtain ⟨back, rfl⟩ := first.split
    obtain ⟨behind, -⟩ := List.pairwise_cons.mp (List.pairwise_append.mp ordered).2.1
    rcases List.mem_append.mp mem with inFront | here
    · exact absurd holds (first.before item inFront)
    rcases List.mem_cons.mp here with same | inBack
    · exact same.symm
    · exact absurd first.holds (least found first.mem (behind item inBack))

/-- The first image with a property is the image of the first item whose image has it. -/
theorem exists_map_iff {β : Type} {f : α → β} {q : β → Prop} {image : β} :
    (∃ front, IsFirst q (items.map f) front image) ↔
      ∃ item, (∃ front, IsFirst (fun a => q (f a)) items front item) ∧ f item = image := by
  constructor
  · rintro ⟨front, ⟨back, split⟩, before, holds⟩
    obtain ⟨ahead, rest, rfl, rfl, restEq⟩ := List.map_eq_append_iff.mp split
    obtain ⟨item, behind, rfl, rfl, -⟩ := List.map_eq_cons_iff.mp restEq
    rw [List.forall_mem_map] at before
    exact ⟨item, ⟨ahead, ⟨behind, rfl⟩, before, holds⟩, rfl⟩
  · rintro ⟨item, ⟨front, ⟨back, rfl⟩, before, holds⟩, rfl⟩
    exact ⟨front.map f, ⟨back.map f, by simp⟩, List.forall_mem_map.mpr before, holds⟩

end IsFirst

/-! ## Loops of results -/

variable {ε α β : Type}

/-- Two results in sequence fail as the first one does, or else as the second one does. -/
theorem Except.bind_eq_error_iff {first : Except ε α} {next : α → Except ε β} {error : ε} :
    (first >>= next) = .error error ↔
      first = .error error ∨ ∃ a, first = .ok a ∧ next a = .error error := by
  cases first with
  | error e => simp [bind, Except.bind]
  | ok a => simp [bind, Except.bind]

theorem Except.map_eq_error_iff {result : Except ε α} {f : α → β} {error : ε} :
    f <$> result = .error error ↔ result = .error error := by
  cases result <;> simp [Functor.map, Except.map]

theorem Except.exists_map_iff {result : Except ε α} {f : α → β} :
    (∃ b, f <$> result = .ok b) ↔ ∃ a, result = .ok a := by
  cases result <;> simp [Functor.map, Except.map]

namespace Pool

variable {work : α → Except ε β} {items : List α}

/-- A loop succeeds exactly if the work on each item does. -/
theorem exists_mapM_iff :
    (∃ results, items.mapM work = .ok results) ↔ ∀ item ∈ items, ∃ result, work item = .ok result := by
  refine ⟨?_, exists_mapM⟩
  rintro ⟨results, worked⟩
  induction items generalizing results with
  | nil => exact fun _ mem => absurd mem List.not_mem_nil
  | cons item rest ih =>
      obtain ⟨result, others, first, othersEq, -⟩ := mapM_cons_eq_ok_iff.mp worked
      exact List.forall_mem_cons.mpr ⟨⟨result, first⟩, ih others othersEq⟩

/-- A loop fails exactly as the work on the first item does on which it fails. -/
theorem mapM_eq_error_iff {p : α → Prop} (fails : ∀ item, p item ↔ ¬ ∃ result, work item = .ok result)
    {error : ε} :
    items.mapM work = .error error ↔
      ∃ front item, IsFirst p items front item ∧ work item = .error error := by
  constructor
  · intro failed
    have some : ∃ item ∈ items, p item := by
      by_contra none
      have each : ∀ item ∈ items, ∃ result, work item = .ok result := by
        intro item mem
        by_contra undone
        exact none ⟨item, mem, (fails item).mpr undone⟩
      obtain ⟨results, worked⟩ := exists_mapM each
      cases worked.symm.trans failed
    obtain ⟨_, mem, holds⟩ := some
    obtain ⟨front, item, first⟩ := IsFirst.exists_of_mem mem holds
    refine ⟨front, item, first, ?_⟩
    obtain ⟨back, rfl⟩ := first.split
    cases outcome : work item with
    | ok result => exact absurd ⟨result, outcome⟩ ((fails item).mp first.holds)
    | error other =>
        obtain ⟨results, worked⟩ := exists_mapM fun before mem =>
          not_not.mp (mt (fails before).mpr (first.before before mem))
        rw [mapM_eq_error worked outcome, Except.error.injEq] at failed
        rw [failed]
  · rintro ⟨front, item, ⟨⟨back, rfl⟩, before, -⟩, failed⟩
    obtain ⟨results, worked⟩ := exists_mapM fun other mem =>
      not_not.mp (mt (fails other).mpr (before other mem))
    exact mapM_eq_error worked failed

end Pool

end StringAudit
