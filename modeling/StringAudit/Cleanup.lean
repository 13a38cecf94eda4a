import StringAudit.Findings
import StringAudit.Resource.Removal
import StringAudit.TextFile
import StringAudit.Writer

/-!
# Removing what was found

The resource files of findings are cleaned in place, in the order of their paths, without the
identifiers found in them.  A file that cannot be read or replaced is reported and left as it is; the
others are cleaned all the same.
-/

namespace StringAudit

/-- How resource files are cleaned. -/
structure Cleanup where
  /-- The name of the character set in which files are written. -/
  charset : String := "utf-8"
  /-- The writer of progress lines. -/
  progress : Option Writer := none
  /-- The writer of the lines on files that failed. -/
  alarms : Option Writer := none
  deriving DecidableEq, Repr

namespace Cleanup

/-- What became of the files: those that were cleaned, and those that were not, with the reason. -/
structure Result where
  written : List String := []
  failed : List (String × String) := []
  deriving DecidableEq, Repr

variable [Codecs]

/-- Clean a file on the disk. -/
def cleanFile (charset path : String) (unwanted : List String) (disk : Disk) :
    Except Failure Unit × Disk :=
  match TextFile.read path disk with
  | .error failure => (.error failure, disk)
  | .ok text => TextFile.replace path (Resource.removing unwanted text) charset disk

/-- The reason of a failure of one file; nothing if it is not confined to that file. -/
def confined? : Failure → Option String
  | .unreadable _ reason => some reason
  | .unwritable _ reason => some reason
  | _ => none

/-- Clean a file and report on it. -/
def cleanOne (cleanup : Cleanup) (result : Result) (entry : String × List String) : Action Result := do
  let path := entry.1
  Writer.announce cleanup.progress ("\n\nNow modifying " ++ path ++ " ...")
  match ← (Action.onDisk (cleanFile cleanup.charset path entry.2)).outcome with
  | .ok () => pure { result with written := result.written ++ [path] }
  | .error failure =>
      match confined? failure with
      | some reason => do
          Writer.announce cleanup.alarms ("ERROR writing file: " ++ path ++ " (" ++ reason ++ ")")
          pure { result with failed := result.failed ++ [(path, failure.message)] }
      | none => throw failure

/-- Clean the files of findings. -/
def apply (cleanup : Cleanup) (findings : Findings) : Action Result :=
  findings.byPath.foldlM cleanup.cleanOne {}

end Cleanup

end StringAudit
