import StringAudit.Proofs.Reference

/-!
# The exact abandoned identifiers

Of a list of identifiers, those are abandoned in a corpus that cannot be cut around a quoted form of
them.  They are listed once each, in the order in which they first occur, and no other list is the answer.
So the answer for two lists in a row is the answer for the first one and, behind it, what the answer for
the second one adds.
-/

namespace StringAudit.Reference

/-- A corpus can be cut around a text: the text stands in it between two others. -/
def Occurs (corpus piece : String) : Prop :=
  ∃ before after, corpus = before ++ piece ++ after

/-- An identifier stands in a corpus in double quotes, in double quotes behind an at sign, or in
apostrophes. -/
def Mentions (corpus identifier : String) : Prop :=
  Occurs corpus ("\"" ++ identifier ++ "\"") ∨
    Occurs corpus ("\"@" ++ identifier ++ "\"") ∨
    Occurs corpus ("'" ++ identifier ++ "'")

/-- The answer to which of some identifiers a corpus does not mention: each of them once, in order of
first occurrence. -/
structure ListsAbandoned (corpus : String) (identifiers found : List String) : Prop where
  nodup : found.Nodup
  mem_iff : ∀ i, i ∈ found ↔ i ∈ identifiers ∧ ¬ Mentions corpus i
  inOrder : FirstsInOrder identifiers found

variable {corpus : String} {identifiers found others : List String}

theorem occurs_iff {piece : String} : Occurs corpus piece ↔ piece.toList <:+: corpus.toList := by
  constructor
  · rintro ⟨before, after, rfl⟩
    exact ⟨before.toList, after.toList, by simp⟩
  · rintro ⟨before, after, cut⟩
    refine ⟨String.ofList before, String.ofList after, ?_⟩
    rw [← String.toList_inj, ← cut]
    simp

theorem refers_iff_mentions {identifier : String} :
    Refers corpus.toList identifier ↔ Mentions corpus identifier := by
  simp only [Refers, forms, List.exists_mem_cons_iff, List.not_mem_nil, false_and, exists_false, or_false,
    Mentions, occurs_iff]

/-- There is one answer only. -/
theorem ListsAbandoned.unique (lists : ListsAbandoned corpus identifiers found)
    (lists' : ListsAbandoned corpus identifiers others) : found = others :=
  lists.inOrder.eq_of_mem_iff lists'.inOrder fun i => (lists.mem_iff i).trans (lists'.mem_iff i).symm

theorem firstsInOrder_abandoned (corpus : String) (identifiers : List String) :
    FirstsInOrder identifiers (abandoned corpus identifiers) := by
  rw [abandoned_eq, eraseDups_filter]
  exact (firstsInOrder_eraseDups identifiers).filter _

theorem listsAbandoned_abandoned (corpus : String) (identifiers : List String) :
    ListsAbandoned corpus identifiers (abandoned corpus identifiers) where
  nodup := (firstsInOrder_abandoned corpus identifiers).nodup
  mem_iff i := by rw [mem_abandoned_iff, refers_iff_mentions]
  inOrder := firstsInOrder_abandoned corpus identifiers

/-- Behind other identifiers, those are listed that are not listed among the others. -/
theorem abandoned_append (corpus : String) (front back : List String) :
    abandoned corpus (front ++ back) =
      abandoned corpus front ++ (abandoned corpus back).filter fun i => i ∉ abandoned corpus front := by
  rw [abandoned_eq, abandoned_eq, abandoned_eq, List.filter_append, eraseDups_append_eq]

/-- Looking for abandoned identifiers is exact.  Of every list it gives the one list without repetitions
that holds its members around no quoted form of which the corpus can be cut, in order of first occurrence.
Two lists in a row give what the first one gives and then what the second one gives, without what the
first one has given. -/
theorem abandoned_exactly (corpus : String) :
    (∀ identifiers found,
      abandoned corpus identifiers = found ↔ ListsAbandoned corpus identifiers found) ∧
    ∀ front back,
      abandoned corpus (front ++ back) =
        abandoned corpus front ++ (abandoned corpus back).filter fun i => i ∉ abandoned corpus front := by
  refine ⟨fun identifiers found => ?_, abandoned_append corpus⟩
  have lists := listsAbandoned_abandoned corpus identifiers
  constructor
  · rintro rfl
    exact lists
  · exact lists.unique

/-- The empty identifier and one with a quote are mentioned as any other one is. -/
example : abandoned "f(\"\", 'a\"', \"@c\")" ["b", "", "a\"", "a", "b", "c"] = ["b", "a"] := by
  decide +kernel

end StringAudit.Reference
