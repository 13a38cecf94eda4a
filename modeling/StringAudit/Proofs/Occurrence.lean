import Mathlib.Data.List.Basic

/-!
# First occurrences

A list without its repetitions holds the first occurrence of each member, in the order in which these
stand in the list.  No other list has the same members in this order.  A list behind another one adds the
members that the other one has not.
-/

namespace StringAudit

variable {α : Type} [BEq α]

/-- The first occurrences of the members of one list in another one stand there in the order of the
members. -/
def FirstsInOrder (items found : List α) : Prop :=
  found.Pairwise fun a b => items.idxOf a < items.idxOf b

namespace FirstsInOrder

variable {items found others : List α}

theorem nodup (ordered : FirstsInOrder items found) : found.Nodup :=
  ordered.imp fun earlier same => absurd (congrArg items.idxOf same) (Nat.ne_of_lt earlier)

theorem filter (ordered : FirstsInOrder items found) (p : α → Bool) : FirstsInOrder items (found.filter p) :=
  List.Pairwise.filter p ordered

/-- The same members in the same order are the same list. -/
theorem eq_of_mem_iff [LawfulBEq α] (ordered : FirstsInOrder items found)
    (ordered' : FirstsInOrder items others) (same : ∀ a, a ∈ found ↔ a ∈ others) : found = others := by
  have perm : found.Perm others := (List.perm_ext_iff_of_nodup ordered.nodup ordered'.nodup).mpr same
  exact perm.eq_of_pairwise (fun _ _ _ _ before after => absurd after (Nat.lt_asymm before)) ordered ordered'

end FirstsInOrder

variable [LawfulBEq α]

/-- The first occurrences among the members that pass a test are the first occurrences that pass it. -/
theorem eraseDups_filter (p : α → Bool) (items : List α) :
    (items.filter p).eraseDups = items.eraseDups.filter p := by
  -- By the recursion of `eraseDups`, which goes on with the rest without the head.
  match items with
  | [] => rfl
  | item :: rest =>
      have later := eraseDups_filter p (rest.filter fun other => !other == item)
      rw [List.eraseDups_cons]
      by_cases passes : p item = true
      · rw [List.filter_cons_of_pos passes, List.filter_cons_of_pos passes, List.eraseDups_cons, ← later,
          List.filter_filter, List.filter_filter]
        simp only [Bool.and_comm]
      · rw [List.filter_cons_of_neg passes, List.filter_cons_of_neg passes, ← later, List.filter_filter]
        congr 1
        refine List.filter_congr fun other _ => ?_
        by_cases same : other = item
        · simp [same, passes]
        · simp [same]
termination_by items.length
decreasing_by exact Nat.lt_succ_of_le (List.length_filter_le _ _)

/-- A list behind another one adds the members that the other one has not. -/
theorem eraseDups_append_eq (front back : List α) :
    (front ++ back).eraseDups =
      front.eraseDups ++ back.eraseDups.filter fun item => item ∉ front.eraseDups := by
  rw [List.eraseDups_append, List.removeAll, eraseDups_filter]
  congr 1
  refine List.filter_congr fun item _ => ?_
  rw [Bool.eq_iff_iff, Bool.not_eq_true', ← Bool.not_eq_true, List.elem_iff, decide_eq_true_iff,
    List.mem_eraseDups]

/-- A list without its repetitions holds the first occurrences in their order. -/
theorem firstsInOrder_eraseDups (items : List α) : FirstsInOrder items items.eraseDups := by
  induction items with
  | nil => exact .nil
  | cons item rest ih =>
      -- Other members than the head first occur one place further down than in the rest.
      have later {other : α} (mem : other ∈ rest.eraseDups.filter fun other => !other == item) :
          (item :: rest).idxOf other = rest.idxOf other + 1 := by
        obtain ⟨-, new⟩ := List.mem_filter.mp mem
        refine List.idxOf_cons_ne rest fun same => ?_
        simp [same] at new
      rw [List.eraseDups_cons, eraseDups_filter, FirstsInOrder, List.pairwise_cons]
      constructor
      · intro other mem
        rw [List.idxOf_cons_self, later mem]
        exact Nat.succ_pos _
      · refine (ih.filter _).imp_of_mem fun memA memB earlier => ?_
        rw [later memA, later memB]
        exact Nat.succ_lt_succ earlier

end StringAudit
