import Mathlib.Data.List.Nodup
import Mathlib.Data.List.Perm.Basic

/-!
# Entries in order

A report lists entries: keys, and items for each of them.  Sorting forgets the order in which they were
listed, so that two lists with the same members are the same list once they are sorted, and so are two lists
of entries with different keys.  With the items of each key sorted too, entries tell what they say and nothing
else: `canonical` is the same for two lists of entries exactly if they have the same keys, and list the same
items equally often for each of them.
-/

namespace StringAudit

variable {α κ μ : Type} [LE κ] [DecidableLE κ] [LE μ] [DecidableLE μ] [Std.IsLinearOrder κ]

/-- Sorting by a key makes the keys ascend. -/
theorem pairwise_mergeSort_key (key : α → κ) (items : List α) :
    (items.mergeSort fun a b => decide (key a ≤ key b)).Pairwise fun a b => key a ≤ key b := by
  have transitive : ∀ a b c : α,
      decide (key a ≤ key b) = true → decide (key b ≤ key c) = true → decide (key a ≤ key c) = true := by
    simp only [decide_eq_true_eq]
    exact fun _ _ _ => Std.le_trans
  have total : ∀ a b : α, (decide (key a ≤ key b) || decide (key b ≤ key a)) = true := by
    simp only [Bool.or_eq_true, decide_eq_true_eq]
    exact fun _ _ => Std.le_total
  simpa only [decide_eq_true_eq] using List.pairwise_mergeSort transitive total items

/-- Items with different keys have one order. -/
theorem mergeSort_key_eq_of_perm {key : α → κ} {items others : List α} (distinct : (items.map key).Nodup)
    (perm : others.Perm items) :
    (others.mergeSort fun a b => decide (key a ≤ key b)) =
      items.mergeSort fun a b => decide (key a ≤ key b) := by
  have sorted := List.mergeSort_perm items fun a b => decide (key a ≤ key b)
  have moved := ((List.mergeSort_perm others fun a b => decide (key a ≤ key b)).trans perm).trans sorted.symm
  refine moved.eq_of_pairwise ?_ (pairwise_mergeSort_key key others) (pairwise_mergeSort_key key items)
  intro a b aMem bMem le ge
  have aFound := sorted.mem_iff.mp (moved.mem_iff.mp aMem)
  have bFound := sorted.mem_iff.mp bMem
  exact List.inj_on_of_nodup_map distinct aFound bFound (Std.le_antisymm le ge)

namespace Entries

omit [Std.IsLinearOrder κ]

/-- Items in ascending order. -/
def sorted (items : List κ) : List κ :=
  items.mergeSort fun a b => decide (a ≤ b)

/-- Entries with the items of each key in order. -/
def inOrder (entries : List (κ × List κ)) : List (κ × List κ) :=
  entries.map fun entry => (entry.1, sorted entry.2)

/-- Entries put in order: the keys, and the items of each of them. -/
def canonical (entries : List (κ × List κ)) : List (κ × List κ) :=
  (entries.mergeSort fun a b => decide (a.1 ≤ b.1)).map fun entry => (entry.1, sorted entry.2)

/-- Entries of different keys. -/
def Distinct (entries : List (κ × List κ)) : Prop :=
  (entries.map Prod.fst).Nodup

/-- Entries that say the same: they have the same keys, and for each of them they list the same items equally
often. -/
structure Alike (entries others : List (κ × List κ)) : Prop where
  keys : ∀ key, key ∈ entries.map Prod.fst ↔ key ∈ others.map Prod.fst
  items : ∀ key items more, (key, items) ∈ entries → (key, more) ∈ others → items.Perm more

variable {entries others : List (κ × List κ)}

theorem perm_sorted (items : List κ) : (sorted items).Perm items :=
  List.mergeSort_perm _ _

/-- Put in order, items tell how often each of them was listed, and nothing else. -/
theorem sorted_eq_iff [Std.IsLinearOrder κ] {items more : List κ} :
    sorted items = sorted more ↔ items.Perm more := by
  constructor
  · intro same
    exact (perm_sorted items).symm.trans (same ▸ perm_sorted more)
  · intro perm
    have moved := ((perm_sorted items).trans perm).trans (perm_sorted more).symm
    exact moved.eq_of_pairwise (fun _ _ _ _ => Std.le_antisymm) (pairwise_mergeSort_key id items)
      (pairwise_mergeSort_key id more)

theorem mergeSort_inOrder (entries : List (κ × List κ)) :
    ((inOrder entries).mergeSort fun a b => decide (a.1 ≤ b.1)) = canonical entries := by
  refine (List.map_mergeSort ?_).symm
  exact fun _ _ _ _ => rfl

theorem perm_canonical (entries : List (κ × List κ)) : (canonical entries).Perm (inOrder entries) :=
  (List.mergeSort_perm entries _).map _

theorem map_fst_inOrder (entries : List (κ × List κ)) :
    (inOrder entries).map Prod.fst = entries.map Prod.fst := by
  rw [inOrder, List.map_map]
  rfl

theorem Distinct.inOrder (distinct : Distinct entries) : Distinct (inOrder entries) := by
  rwa [Distinct, map_fst_inOrder]

theorem mem_inOrder_iff {key : κ} {items : List κ} :
    (key, items) ∈ inOrder entries ↔ ∃ listed, (key, listed) ∈ entries ∧ sorted listed = items := by
  rw [Entries.inOrder, List.mem_map]
  constructor
  · rintro ⟨⟨_, listed⟩, mem, same⟩
    obtain ⟨rfl, rfl⟩ := Prod.mk.inj same
    exact ⟨listed, mem, rfl⟩
  · rintro ⟨listed, mem, rfl⟩
    exact ⟨(key, listed), mem, rfl⟩

/-- Put in order, entries of different keys tell what they list up to the orders of the items. -/
theorem Distinct.canonical_eq_iff_perm [Std.IsLinearOrder κ] (distinct : Distinct entries) :
    canonical others = canonical entries ↔ (Entries.inOrder others).Perm (Entries.inOrder entries) := by
  constructor
  · intro same
    exact (perm_canonical others).symm.trans (same ▸ perm_canonical entries)
  · intro perm
    rw [← mergeSort_inOrder, ← mergeSort_inOrder]
    exact mergeSort_key_eq_of_perm distinct.inOrder perm

omit [LE κ] [DecidableLE κ] in
theorem Alike.symm (alike : Alike entries others) : Alike others entries where
  keys := fun key => (alike.keys key).symm
  items := fun key items more mem otherMem => (alike.items key more items otherMem mem).symm

theorem Alike.mem_inOrder [Std.IsLinearOrder κ] (alike : Alike entries others) {entry : κ × List κ}
    (mem : entry ∈ inOrder entries) : entry ∈ inOrder others := by
  obtain ⟨key, items⟩ := entry
  obtain ⟨listed, listedMem, rfl⟩ := mem_inOrder_iff.mp mem
  obtain ⟨⟨_, more⟩, moreMem, rfl⟩ :=
    List.mem_map.mp ((alike.keys key).mp (List.mem_map_of_mem listedMem))
  have perm := alike.items _ listed more listedMem moreMem
  exact mem_inOrder_iff.mpr ⟨more, moreMem, sorted_eq_iff.mpr perm.symm⟩

/-- Put in order, entries tell what they say, and nothing else. -/
theorem Distinct.canonical_eq_iff [Std.IsLinearOrder κ] (distinct : Distinct entries)
    (otherDistinct : Distinct others) : canonical entries = canonical others ↔ Alike entries others := by
  rw [otherDistinct.canonical_eq_iff_perm]
  constructor
  · intro perm
    refine ⟨fun key => ?_, fun key items more mem otherMem => ?_⟩
    · have keys := perm.map Prod.fst
      rw [map_fst_inOrder, map_fst_inOrder] at keys
      exact keys.mem_iff
    · obtain ⟨listed, listedMem, same⟩ :=
        mem_inOrder_iff.mp (perm.mem_iff.mp (mem_inOrder_iff.mpr ⟨items, mem, rfl⟩))
      obtain ⟨-, rfl⟩ := Prod.mk.inj (List.inj_on_of_nodup_map otherDistinct listedMem otherMem rfl)
      exact sorted_eq_iff.mp same.symm
  · intro alike
    have nodup := distinct.inOrder.of_map
    have otherNodup := otherDistinct.inOrder.of_map
    refine (List.perm_ext_iff_of_nodup nodup otherNodup).mpr fun entry => ?_
    exact ⟨alike.mem_inOrder, alike.symm.mem_inOrder⟩

/-- Entries of which keys and items are renamed in their order are put in order as before. -/
theorem canonical_map {rename : κ → μ} (same : ∀ a b, rename a ≤ rename b ↔ a ≤ b)
    (entries : List (κ × List κ)) :
    canonical (entries.map (Prod.map rename (List.map rename))) =
      (canonical entries).map (Prod.map rename (List.map rename)) := by
  have items : ∀ items : List κ, sorted (items.map rename) = (sorted items).map rename :=
    fun items => (List.map_mergeSort fun a _ b _ => decide_eq_decide.mpr (same a b).symm).symm
  have keys : ((entries.map (Prod.map rename (List.map rename))).mergeSort fun a b => decide (a.1 ≤ b.1)) =
      (entries.mergeSort fun a b => decide (a.1 ≤ b.1)).map (Prod.map rename (List.map rename)) :=
    (List.map_mergeSort fun a _ b _ => decide_eq_decide.mpr (same a.1 b.1).symm).symm
  rw [canonical, keys, canonical, List.map_map, List.map_map]
  exact List.map_congr_left fun entry _ => Prod.ext rfl (items entry.2)

theorem canonical_eq_nil_iff : canonical entries = [] ↔ entries = [] := by
  rw [← List.length_eq_zero_iff, ← List.length_eq_zero_iff, (perm_canonical entries).length_eq, inOrder,
    List.length_map]

end Entries

end StringAudit
