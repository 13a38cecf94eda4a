import StringAudit.Findings
import StringAudit.Writer

/-!
# The plain report

The plain report names each file with findings, in the order of the paths, and below it the abandoned
identifiers in their own order, indented by two blanks; an empty line ends the block of a file.

The path of a file is torn if its bytes are no UTF-8.  The line that names it is then written like any other:
a character set without surrogates has a diagnostic in its place.
-/

namespace StringAudit.Report

/-- Paths, with texts for each of them. -/
structure Listing where
  entries : List (WideText × List WideText)
  deriving DecidableEq, Repr

namespace Listing

/-- The entries in the ascending order of their paths. -/
def byPath (listing : Listing) : List (WideText × List WideText) :=
  listing.entries.mergeSort fun a b => decide (a.1 ≤ b.1)

/-- The lines of the block of a file. -/
def block (entry : WideText × List WideText) : List WideText :=
  entry.1 :: (WideText.sorted entry.2).map (WideText.sound "  " ++ ·) ++ [.sound ""]

/-- The lines of the report. -/
def lines (listing : Listing) : List WideText :=
  if listing.entries.isEmpty then [.sound "No abandoned resource strings were detected."]
  else .sound "Abandoned resource strings were detected:" :: listing.byPath.flatMap block

end Listing

/-- What findings list. -/
def Listing.of (findings : Findings) : Listing :=
  ⟨findings.entries.map fun entry => (entry.1, entry.2.map .sound)⟩

instance : Coe Findings Listing :=
  ⟨Listing.of⟩

/-- Write the report. -/
def display [Codecs] (writer : Writer) (listing : Listing) : Action Unit :=
  listing.lines.forM writer.putLine

end StringAudit.Report
