import StringAudit.Findings
import StringAudit.Report.Json
import StringAudit.TextFile

/-!
# The report as a document

The document holds what the plain report says, together with what was audited and the number of files and
of identifiers found.  Paths and identifiers are in ascending order.
-/

namespace StringAudit.Report

/-- What tells one run from another: a name of its own, and when it took place. -/
structure Stamp where
  run : String
  time : String
  deriving DecidableEq, Repr

/-- What an audit found, where, and when. -/
structure Document where
  stamp : Stamp
  roots : List String
  storyboards : Bool
  files : Nat
  identifiers : Nat
  abandoned : List (String × List String)
  deriving DecidableEq, Repr

namespace Document

/-- The version of the form of the document. -/
def schemaVersion : String :=
  "1.0.0"

/-- The document of findings. -/
def of (stamp : Stamp) (roots : List String) (storyboards : Bool) (findings : Findings) : Document where
  stamp
  roots
  storyboards
  files := findings.entries.length
  identifiers := (findings.entries.flatMap (·.2)).length
  abandoned := findings.byPath.map fun entry => (entry.1, Findings.sorted entry.2)

/-- A JSON list of texts. -/
def texts (ts : List String) : Json :=
  .list (ts.map .text)

/-- The document in JSON. -/
def json (d : Document) : Json :=
  .object
    [("schema_version", .text schemaVersion),
      ("metadata", .object
        [("run_id", .text d.stamp.run), ("timestamp", .text d.stamp.time), ("roots", texts d.roots),
          ("storyboard", .truth d.storyboards)]),
      ("summary", .object [("files", .number d.files), ("identifiers", .number d.identifiers)]),
      ("abandoned", .object (d.abandoned.map fun entry => (entry.1, texts entry.2)))]

/-- The text of the document. -/
def text (d : Document) : String :=
  d.json.print ++ "\n"

/-- Replace the file at a path by the document. -/
def save [Codecs] (d : Document) (path : String) : Action Unit :=
  Action.onDisk (TextFile.replace path d.text "utf-8")

end Document

end StringAudit.Report
