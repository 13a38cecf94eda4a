/-!
# Findings

The findings of an audit: for each resource file that has abandoned identifiers, its path and those
identifiers.  A path occurs once; recording it again replaces what was recorded before, at its old
place.
-/

namespace StringAudit

/-- Resource files with their abandoned identifiers, in the order in which they were recorded. -/
structure Findings where
  entries : List (String × List String) := []
  deriving DecidableEq, Repr

namespace Findings

/-- Put the identifiers of a path into a list of entries. -/
def recordIn (path : String) (identifiers : List String) :
    List (String × List String) → List (String × List String)
  | [] => [(path, identifiers)]
  | older :: rest =>
      if older.1 = path then (path, identifiers) :: rest
      else older :: recordIn path identifiers rest

/-- Record the identifiers of a path. -/
def record (findings : Findings) (path : String) (identifiers : List String) : Findings :=
  ⟨recordIn path identifiers findings.entries⟩

/-- Whether nothing was found. -/
def isEmpty (findings : Findings) : Bool :=
  findings.entries.isEmpty

/-- Texts in the ascending order of their code points. -/
def sorted (texts : List String) : List String :=
  texts.mergeSort fun a b => decide (a ≤ b)

/-- The entries in the ascending order of their paths. -/
def byPath (findings : Findings) : List (String × List String) :=
  findings.entries.mergeSort fun a b => decide (a.1 ≤ b.1)

end Findings

end StringAudit
