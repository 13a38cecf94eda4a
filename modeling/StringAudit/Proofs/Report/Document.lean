import StringAudit.Proofs.Report.Plain
import StringAudit.Report.Document

/-!
# The two reports agree

The plain report goes through the findings line by line; the document takes its totals from the findings as
they were recorded, and its list from the same findings put in order.  Both come to the same blocks: the
document lists the blocks that can be read off the lines of the plain report, counts them, and counts their
lines.  Neither depends on the order in which anything was recorded.
-/

namespace StringAudit

namespace Json

/-- The member of an object under a key. -/
def member? : Json → String → Option Json
  | object members, key => members.lookup key
  | _, _ => none

/-- The value at the end of a path of keys. -/
def at? (value : Json) (keys : List String) : Option Json :=
  keys.foldlM member? value

end Json

namespace Report

variable {findings : Findings}

/-- A document in JSON lists blocks: the other lines of each under its first line, the number of blocks, and
that of all their other lines. -/
structure Lists (document : Json) (blocks : List (String × List String)) : Prop where
  abandoned : document.at? ["abandoned"] =
    some (.object (blocks.map fun block => (block.1, Document.texts block.2)))
  files : document.at? ["summary", "files"] = some (.number blocks.length)
  identifiers : document.at? ["summary", "identifiers"] =
    some (.number (blocks.flatMap (·.2)).length)

/-- The document of blocks. -/
def Document.ofBlocks (stamp : Stamp) (roots : List String) (storyboards : Bool)
    (blocks : List (String × List String)) : Document where
  stamp
  roots
  storyboards
  files := blocks.length
  identifiers := (blocks.flatMap (·.2)).length
  abandoned := blocks

theorem Document.lists_ofBlocks (stamp : Stamp) (roots : List String) (storyboards : Bool)
    (blocks : List (String × List String)) :
    Lists (ofBlocks stamp roots storyboards blocks).json blocks where
  abandoned := rfl
  files := rfl
  identifiers := rfl

/-- The document is made of the findings in order, although its totals are not. -/
theorem Document.of_eq (stamp : Stamp) (roots : List String) (storyboards : Bool) (findings : Findings) :
    Document.of stamp roots storyboards findings =
      .ofBlocks stamp roots storyboards findings.canonical := by
  rw [ofBlocks, findings.length_canonical, findings.perm_identifiers_canonical.length_eq]
  rfl

/-- The two reports agree.  The plain report consists of the lines of blocks that can be read off it, one for
each path, in ascending order; the document lists just these blocks.  Both reports are the same for the
findings in any other order. -/
theorem reports_agree [Codecs] (distinct : findings.Distinct) (stamp : Stamp) (roots : List String)
    (storyboards : Bool) :
    ∃ blocks : List (String × List String),
      (∀ w, display w findings = (layout blocks).forM w.writeLine) ∧
      (∀ others, (Listing.of findings).lines = (layout others).map .sound → others = blocks) ∧
      (blocks.map Prod.fst).Pairwise (· < ·) ∧
      Lists (Document.of stamp roots storyboards findings).json blocks ∧
      ∀ other, findings.Rearranges other →
        (∀ w, display w other = display w findings) ∧
          Document.of stamp roots storyboards other = Document.of stamp roots storyboards findings := by
  refine ⟨findings.canonical, fun w => display_eq w findings, ?_, ?_, ?_, ?_⟩
  · intro others same
    rw [Listing.lines_of] at same
    exact (layout_injective (List.map_injective_iff.mpr (fun _ _ => WideText.sound.inj) same)).symm
  · rw [Findings.canonical, List.map_map]
    exact distinct.ascending
  · rw [Document.of_eq]
    exact Document.lists_ofBlocks stamp roots storyboards findings.canonical
  · intro other rearranges
    have blocks := distinct.canonical_of_rearranges rearranges
    refine ⟨fun w => ?_, ?_⟩
    · rw [display_eq, display_eq, blocks]
    · rw [Document.of_eq, Document.of_eq, blocks]

/-- The reports of `deceptive`: two blocks, and five lines in them. -/
theorem reports_agree_deceptive :
    let document := (Document.of ⟨"run", "now"⟩ ["app"] true deceptive).json
    deceptive.Distinct ∧ deceptive.Rearranges deceptiveInOrder ∧
      (∀ w, display w deceptive = (layout deceptiveInOrder.entries).forM w.writeLine) ∧
      Lists document deceptiveInOrder.entries ∧
      document.at? ["summary", "files"] = some (.number 2) ∧
      document.at? ["summary", "identifiers"] = some (.number 5) ∧
      (Document.of ⟨"run", "now"⟩ ["app"] true deceptiveInOrder).json = document := by
  intro document
  have distinct : deceptive.Distinct := by decide
  obtain ⟨blocks, displayed, only, -, lists, again⟩ :=
    reports_agree distinct ⟨"run", "now"⟩ ["app"] true
  have inOrder : deceptiveInOrder.canonical = deceptiveInOrder.entries :=
    Findings.canonical_of_ascending (by decide) (by decide)
  have canonical : deceptive.canonical = deceptiveInOrder.entries := canonical_deceptive.trans inOrder
  obtain rfl : deceptiveInOrder.entries = blocks :=
    only _ (by rw [Listing.lines_of, canonical])
  exact ⟨distinct, deceptive_rearranges, displayed, lists, lists.files, lists.identifiers,
    congrArg Document.json (again deceptiveInOrder deceptive_rearranges).2⟩

end Report

end StringAudit
