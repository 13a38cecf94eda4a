import Mathlib.Data.List.Induction
import StringAudit.CommandLine.BareWords

/-!
# The positions of bare words

The bare words are taken by their positions: `storyboard` at the last one, and `write` at the first one
where it stands, unless an option that takes a value is spelled in full right in front.  All other arguments
remain, in their order.
-/

namespace StringAudit.CommandLine

/-! ## Positions of bare words -/

/-- The argument at a position is awaited as a value; `awaited` tells so for the first one. -/
def AwaitedFrom (awaited : Bool) (args : List String) : Nat → Prop
  | 0 => awaited = true
  | i + 1 => args[i]?.any awaitsValue = true

instance (awaited : Bool) (args : List String) : (k : Nat) → Decidable (AwaitedFrom awaited args k)
  | 0 => inferInstanceAs (Decidable (awaited = true))
  | i + 1 => inferInstanceAs (Decidable (args[i]?.any awaitsValue = true))

/-- An option that takes a value is spelled in full right in front of a position. -/
def Awaited (args : List String) (k : Nat) : Prop :=
  AwaitedFrom false args k

instance (args : List String) (k : Nat) : Decidable (Awaited args k) :=
  inferInstanceAs (Decidable (AwaitedFrom false args k))

/-- The argument at a position is taken as the bare word for storyboards. -/
def TakenAsStoryboard (args : List String) (k : Nat) : Prop :=
  args[k]? = some storyboardWord ∧ k + 1 = args.length ∧ ¬ Awaited args k

instance (args : List String) (k : Nat) : Decidable (TakenAsStoryboard args k) :=
  inferInstanceAs (Decidable (_ ∧ _ ∧ _))

/-- The argument at a position is taken as the bare word for writing. -/
def TakenAsWrite (args : List String) (k : Nat) : Prop :=
  args[k]? = some writeWord ∧ ¬ Awaited args k ∧ ∀ i < k, args[i]? = some writeWord → Awaited args i

instance (args : List String) (k : Nat) : Decidable (TakenAsWrite args k) :=
  inferInstanceAs (Decidable (_ ∧ _ ∧ _))

/-- The argument at a position is taken as a bare word. -/
def Taken (args : List String) (k : Nat) : Prop :=
  TakenAsStoryboard args k ∨ TakenAsWrite args k

instance (args : List String) (k : Nat) : Decidable (Taken args k) :=
  inferInstanceAs (Decidable (_ ∨ _))

/-- The arguments at some positions, in their order. -/
def argumentsAt (positions : Nat → Prop) [DecidablePred positions] (args : List String) : List String :=
  (args.zipIdx.filter fun item => positions item.2).map Prod.fst

/-- Arguments are split into those that are not taken, in their order, and the words that are. -/
structure SplitsInto (args : List String) (bare : BareWords) : Prop where
  remaining : bare.remaining = argumentsAt (fun k => ¬ Taken args k) args
  storyboards : bare.storyboards = true ↔ ∃ k, TakenAsStoryboard args k
  write : bare.write = true ↔ ∃ k, TakenAsWrite args k

section Positions

variable {args front back : List String} {positions others : Nat → Prop} [DecidablePred positions]
  [DecidablePred others]

theorem argumentsAt_sublist : (argumentsAt positions args).Sublist args := by
  have kept := (List.filter_sublist (p := fun item => positions item.2) (l := args.zipIdx)).map Prod.fst
  rwa [List.zipIdx_map_fst] at kept

theorem argumentsAt_congr (same : ∀ k < args.length, positions k ↔ others k) :
    argumentsAt positions args = argumentsAt others args := by
  rw [argumentsAt, argumentsAt]
  congr 1
  refine List.filter_congr ?_
  rintro ⟨arg, k⟩ mem
  have bound := (List.mem_zipIdx' mem).1
  simp only [same k bound]

theorem argumentsAt_eq_self (all : ∀ k < args.length, positions k) : argumentsAt positions args = args := by
  rw [argumentsAt, List.filter_eq_self.mpr, List.zipIdx_map_fst]
  rintro ⟨arg, k⟩ mem
  exact decide_eq_true (all k (List.mem_zipIdx' mem).1)

theorem argumentsAt_append :
    argumentsAt positions (front ++ back) =
      argumentsAt positions front ++ argumentsAt (fun k => positions (front.length + k)) back := by
  have shifted : back.zipIdx (0 + front.length) =
      back.zipIdx.map fun item => (item.1, front.length + item.2) := by
    rw [List.zipIdx_eq_map_add, Nat.zero_add]
  simp only [argumentsAt, List.zipIdx_append, List.filter_append, List.map_append, shifted,
    List.filter_map, List.map_map]
  rfl

theorem argumentsAt_singleton_of_not {arg : String} (dropped : ¬ positions 0) :
    argumentsAt positions [arg] = [] := by
  simp [argumentsAt, dropped]

theorem argumentsAt_append_cons {arg : String}
    (same : ∀ k < (front ++ arg :: back).length, positions k ↔ k ≠ front.length) :
    argumentsAt positions (front ++ arg :: back) = front ++ back := by
  rw [List.length_append, List.length_cons] at same
  have frontKept : argumentsAt positions front = front :=
    argumentsAt_eq_self fun k bound => (same k (by omega)).mpr (by omega)
  have backKept : argumentsAt (fun k => positions (front.length + (1 + k))) back = back :=
    argumentsAt_eq_self fun k bound => (same _ (by omega)).mpr (by omega)
  have dropped : argumentsAt (fun k => positions (front.length + k)) [arg] = [] :=
    argumentsAt_singleton_of_not fun kept => (same _ (by omega)).mp kept rfl
  rw [argumentsAt_append, frontKept, ← List.singleton_append, argumentsAt_append, dropped,
    List.nil_append, List.length_singleton, backKept]

end Positions

/-! ## The split -/

theorem awaitedFrom_cons {awaited : Bool} {arg : String} {rest : List String} {k : Nat} :
    AwaitedFrom awaited (arg :: rest) (k + 1) ↔ AwaitedFrom (awaitsValue arg) rest k := by
  cases k with
  | zero => simp [AwaitedFrom]
  | succ i => simp [AwaitedFrom]

/-- The first `write` that is not awaited is dropped. -/
theorem of_withoutWrite?_eq_some {awaited : Bool} {args rest : List String}
    (without : withoutWrite? awaited args = some rest) :
    ∃ front back, args = front ++ writeWord :: back ∧ rest = front ++ back ∧
      ¬ AwaitedFrom awaited args front.length ∧
      ∀ i < front.length, args[i]? = some writeWord → AwaitedFrom awaited args i := by
  fun_induction withoutWrite? awaited args generalizing rest with
  | case1 => cases without
  | case2 awaited arg tail isWrite =>
      obtain ⟨rfl, rfl⟩ := isWrite
      cases without
      exact ⟨[], tail, rfl, rfl, by simp [AwaitedFrom], fun i less => absurd less (Nat.not_lt_zero i)⟩
  | case3 awaited arg tail other ih =>
      obtain ⟨shorter, shorterEq, rfl⟩ := Option.map_eq_some_iff.mp without
      obtain ⟨front, back, rfl, rfl, free, before⟩ := ih shorterEq
      refine ⟨arg :: front, back, rfl, rfl, awaitedFrom_cons.not.mpr free, ?_⟩
      intro i less isWrite
      cases i with
      | zero =>
          have same : arg = writeWord := Option.some.inj isWrite
          by_contra free
          exact other ⟨same, Bool.not_eq_true _ ▸ free⟩
      | succ i => exact awaitedFrom_cons.mpr (before i (Nat.lt_of_succ_lt_succ less) isWrite)

theorem of_withoutWrite?_eq_none {awaited : Bool} {args : List String}
    (without : withoutWrite? awaited args = none) (k : Nat) (isWrite : args[k]? = some writeWord) :
    AwaitedFrom awaited args k := by
  fun_induction withoutWrite? awaited args generalizing k with
  | case1 => cases isWrite
  | case2 => cases without
  | case3 awaited arg rest other ih =>
      cases k with
      | zero =>
          have same : arg = writeWord := Option.some.inj isWrite
          by_contra free
          exact other ⟨same, Bool.not_eq_true _ ▸ free⟩
      | succ k => exact awaitedFrom_cons.mpr (ih (Option.map_eq_none_iff.mp without) k isWrite)

theorem TakenAsWrite.unique {args : List String} {i k : Nat} (first : TakenAsWrite args i)
    (second : TakenAsWrite args k) : i = k := by
  obtain ⟨firstWrite, firstFree, firstBefore⟩ := first
  obtain ⟨secondWrite, secondFree, secondBefore⟩ := second
  rcases Nat.lt_trichotomy i k with less | same | less
  · exact absurd (secondBefore i less firstWrite) firstFree
  · exact same
  · exact absurd (firstBefore k less secondWrite) secondFree

/-- Taking the bare word for writing out of arguments. -/
theorem withoutWrite?_exactly (args : List String) :
    (withoutWrite? false args).getD args = argumentsAt (fun k => ¬ TakenAsWrite args k) args ∧
      ((withoutWrite? false args).isSome = true ↔ ∃ k, TakenAsWrite args k) := by
  cases without : withoutWrite? false args with
  | some rest =>
      obtain ⟨front, back, rfl, rfl, free, before⟩ := of_withoutWrite?_eq_some without
      have taken : TakenAsWrite (front ++ writeWord :: back) front.length :=
        ⟨by simp, free, before⟩
      refine ⟨(argumentsAt_append_cons fun k bound => not_congr ⟨?_, ?_⟩).symm, ?_⟩
      · exact fun other => other.unique taken
      · rintro rfl
        exact taken
      · simpa using ⟨_, taken⟩
  | none =>
      have none : ∀ k, ¬ TakenAsWrite args k := fun k taken =>
        taken.2.1 (of_withoutWrite?_eq_none without k taken.1)
      refine ⟨(argumentsAt_eq_self fun k _ => none k).symm, ?_⟩
      simpa using none

/-! ### The last argument -/

section Last

variable {init : List String} {last : String}

theorem awaited_concat_iff :
    Awaited (init ++ [last]) init.length ↔ init.getLast?.any awaitsValue = true := by
  rw [List.getLast?_eq_getElem?, Awaited]
  cases lengthEq : init.length with
  | zero =>
      obtain rfl := List.eq_nil_of_length_eq_zero lengthEq
      simp [AwaitedFrom]
  | succ n =>
      have within : (init ++ [last])[n]? = init[n]? := List.getElem?_append_left (by omega)
      rw [AwaitedFrom, within, Nat.add_sub_cancel]

/-- An argument in front of the last one is awaited as before. -/
theorem awaited_concat_of_lt {k : Nat} (less : k < init.length) :
    Awaited (init ++ [last]) k ↔ Awaited init k := by
  cases k with
  | zero => exact Iff.rfl
  | succ n =>
      have within : (init ++ [last])[n]? = init[n]? := List.getElem?_append_left (by omega)
      rw [Awaited, Awaited, AwaitedFrom, AwaitedFrom, within]

theorem takenAsStoryboard_concat_iff {k : Nat} :
    TakenAsStoryboard (init ++ [last]) k ↔
      k = init.length ∧ last = storyboardWord ∧ ¬ init.getLast?.any awaitsValue = true := by
  rw [TakenAsStoryboard, List.length_append, List.length_singleton, Nat.add_right_cancel_iff]
  constructor
  · rintro ⟨isWord, rfl, free⟩
    exact ⟨rfl, by simpa using isWord, awaited_concat_iff.not.mp free⟩
  · rintro ⟨rfl, rfl, free⟩
    exact ⟨by simp, rfl, awaited_concat_iff.not.mpr free⟩

/-- The bare word for writing is in front of the one for storyboards. -/
theorem takenAsWrite_concat_iff {k : Nat} :
    TakenAsWrite (init ++ [storyboardWord]) k ↔ TakenAsWrite init k := by
  have word : ∀ i : Nat, (init ++ [storyboardWord])[i]? = some writeWord ↔ init[i]? = some writeWord := by
    intro i
    by_cases less : i < init.length
    · rw [List.getElem?_append_left less]
    · rw [List.getElem?_append_right (by omega), List.getElem?_eq_none (by omega : init.length ≤ i)]
      cases i - init.length <;> simp [storyboardWord, writeWord]
  rw [TakenAsWrite, TakenAsWrite, word]
  refine and_congr_right fun isWrite => ?_
  obtain ⟨less, -⟩ := List.getElem?_eq_some_iff.mp isWrite
  refine and_congr (awaited_concat_of_lt less).not ?_
  refine forall₂_congr fun i before => ?_
  rw [word, awaited_concat_of_lt (Nat.lt_trans before less)]

end Last

theorem endsWithStoryboard_iff {args : List String} :
    endsWithStoryboard args = true ↔ ∃ k, TakenAsStoryboard args k := by
  cases args using List.reverseRecOn with
  | nil => simp [endsWithStoryboard, TakenAsStoryboard]
  | append_singleton init last => simp [endsWithStoryboard, takenAsStoryboard_concat_iff]

theorem splitBareWords_eq (args : List String) :
    let shorter := if endsWithStoryboard args then args.dropLast else args
    splitBareWords args =
      ⟨(withoutWrite? false shorter).getD shorter, endsWithStoryboard args,
        (withoutWrite? false shorter).isSome⟩ := by
  intro shorter
  rw [splitBareWords]
  cases withoutWrite? false shorter <;> rfl

/-- The split of arguments is what the positions of the bare words say. -/
theorem splitsInto (args : List String) : SplitsInto args (splitBareWords args) := by
  rw [splitBareWords_eq]
  cases ends : endsWithStoryboard args with
  | false =>
      have none : ∀ k, ¬ TakenAsStoryboard args k := fun k taken =>
        Bool.false_ne_true (ends.symm.trans (endsWithStoryboard_iff.mpr ⟨k, taken⟩))
      obtain ⟨remaining, write⟩ := withoutWrite?_exactly args
      refine ⟨remaining.trans (argumentsAt_congr fun k _ => not_congr ?_), ?_, write⟩
      · simp only [Taken, none k, false_or]
      · simpa using none
  | true =>
      obtain ⟨k, taken⟩ := endsWithStoryboard_iff.mp ends
      obtain ⟨init, last, rfl⟩ : ∃ init last, args = init ++ [last] := by
        cases args using List.reverseRecOn with
        | nil => cases taken.1
        | append_singleton init last => exact ⟨init, last, rfl⟩
      obtain ⟨rfl, rfl, -⟩ := takenAsStoryboard_concat_iff.mp taken
      obtain ⟨remaining, write⟩ := withoutWrite?_exactly init
      simp only [if_true, List.dropLast_concat]
      refine ⟨?_, iff_of_true rfl ⟨_, taken⟩, ?_⟩
      · -- In front of the last argument, only the bare word for writing is taken.
        rw [argumentsAt_append, argumentsAt_singleton_of_not (not_not_intro (Or.inl taken)),
          List.append_nil]
        refine remaining.trans (argumentsAt_congr fun k less => not_congr ?_)
        simp only [Taken, takenAsStoryboard_concat_iff, takenAsWrite_concat_iff, Nat.ne_of_lt less, false_and,
          false_or]
      · simpa only [takenAsWrite_concat_iff] using write

theorem remaining_sublist (args : List String) : (splitBareWords args).remaining.Sublist args :=
  (splitsInto args).remaining ▸ argumentsAt_sublist

end StringAudit.CommandLine
