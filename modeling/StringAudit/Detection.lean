import StringAudit.Collection
import StringAudit.Findings
import StringAudit.Reference
import StringAudit.Resource.Identifiers
import StringAudit.TextFile
import StringAudit.Writer

/-!
# Detecting abandoned identifiers

Detection first joins the texts of all source files to one corpus.  Then it scans every resource file:
the identifiers of the file that are not allowed anyway and that the corpus refers to nowhere are
abandoned.  The files may be scanned by several workers at once; the results are taken in the order of
the files, so that the outcome is that of scanning them one after the other.

Nothing is found unless everything could be searched, read and scanned: the first failure, in the order
of the roots, then of the source files, then of the resource files, is the outcome.
-/

namespace StringAudit

/-- How an audit is carried out. -/
structure Audit where
  /-- The names of directories that are not entered. -/
  ignored : List String := []
  /-- Identifiers that are never abandoned. -/
  allowed : List String := []
  /-- How many resource files are scanned at once; nothing for as many as seems good. -/
  workers : Option Int := none
  /-- The writer of progress lines. -/
  progress : Option Writer := none
  /-- The writer of the lines on files without abandoned identifiers. -/
  notes : Option Writer := none
  deriving DecidableEq, Repr

namespace Audit

/-- The extensions of source files, with or without storyboards. -/
def sourceExtensions (storyboards : Bool) : List String :=
  ["h", "jsbundle", "m"] ++ (if storyboards then ["storyboard"] else []) ++ ["swift"]

/-- The extensions of resource files. -/
def resourceExtensions : List String :=
  ["strings"]

/-- The source files below roots. -/
def sources (audit : Audit) (roots : List String) (storyboards : Bool) (disk : Disk) :
    Except Failure (List String) :=
  Collection.collect disk (.of (sourceExtensions storyboards) audit.ignored) roots

/-- The resource files below roots. -/
def resources (audit : Audit) (roots : List String) (disk : Disk) : Except Failure (List String) :=
  Collection.collect disk (.of resourceExtensions audit.ignored) roots

/-- The texts of files, joined in order. -/
def joinedTexts (disk : Disk) : List String → Except Failure String
  | [] => .ok ""
  | path :: rest => do
      let text ← TextFile.read path disk
      let others ← joinedTexts disk rest
      pure (text ++ others)

/-- The corpus: the texts of all source files below roots, joined. -/
def corpus (audit : Audit) (roots : List String) (storyboards : Bool) (disk : Disk) :
    Except Failure String := do
  joinedTexts disk (← audit.sources roots storyboards disk)

/-- The abandoned identifiers of a resource file. -/
def scanFile (audit : Audit) (corpus path : String) (disk : Disk) : Except Failure (List String) := do
  let text ← TextFile.read path disk
  match Resource.identifiers text with
  | .ok identifiers =>
      pure (Reference.abandoned corpus (identifiers.filter fun i => !audit.allowed.contains i))
  | .error unclosed => throw (unclosed.failure path)

/-- The resource files with their abandoned identifiers, one after the other. -/
def scanFiles (audit : Audit) (corpus : String) (disk : Disk) :
    List String → Except Failure (List (String × List String))
  | [] => .ok []
  | path :: rest => do
      let identifiers ← audit.scanFile corpus path disk
      let others ← scanFiles audit corpus disk rest
      pure ((path, identifiers) :: others)

variable [Codecs]

/-- Note a clean file, or record the abandoned identifiers of any other. -/
def take (audit : Audit) (findings : Findings) (scanned : String × List String) : Action Findings :=
  if scanned.2.isEmpty then do
    Writer.announce audit.notes (scanned.1 ++ " has no abandoned identifiers")
    pure findings
  else pure (findings.record scanned.1 scanned.2)

/-- Scan resource files. -/
def scanAll (audit : Audit) (corpus : String) (paths : List String) : Action Findings :=
  if paths.isEmpty then pure {}
  else if audit.workers.any (· < 1) then throw (.breakdown .noWorkers)
  else do
    let scanned ← Action.ask fun disk => audit.scanFiles corpus disk paths
    scanned.foldlM audit.take {}

/-- The abandoned identifiers of the resource files below roots. -/
def detect (audit : Audit) (roots : List String) (storyboards : Bool) : Action Findings := do
  Writer.announce audit.progress "[1/2] Building source corpus..."
  let corpus ← Action.ask (audit.corpus roots storyboards)
  let paths ← Action.ask (audit.resources roots)
  Writer.announce audit.progress ("[2/2] Scanning " ++ toString paths.length ++ " resource files...")
  audit.scanAll corpus paths

end Audit

end StringAudit
