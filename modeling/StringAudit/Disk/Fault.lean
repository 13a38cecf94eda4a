import StringAudit.Text.Quoted

/-!
# Faults of the disk

Why the disk could not do what was asked, with the path that was asked for.
-/

namespace StringAudit.Disk

/-- The causes of a fault. -/
inductive Cause
  | missing
  | denied
  | busy
  | present
  | notDirectory
  | isDirectory
  | full
  | nameTooLong
  | tooManyLinks
  deriving DecidableEq, Repr

/-- The number of a cause. -/
def Cause.number : Cause → Nat
  | missing => 2
  | denied => 13
  | busy => 16
  | present => 17
  | notDirectory => 20
  | isDirectory => 21
  | full => 28
  | nameTooLong => 36
  | tooManyLinks => 40

/-- The words of a cause. -/
def Cause.words : Cause → String
  | missing => "No such file or directory"
  | denied => "Permission denied"
  | busy => "Device or resource busy"
  | present => "File exists"
  | notDirectory => "Not a directory"
  | isDirectory => "Is a directory"
  | full => "No space left on device"
  | nameTooLong => "File name too long"
  | tooManyLinks => "Too many levels of symbolic links"

/-- A fault at a path, or in moving a path onto a target. -/
structure Fault where
  cause : Cause
  path : String
  target : Option String := none
  deriving DecidableEq, Repr

/-- The message of a fault. -/
def Fault.message (f : Fault) : String :=
  let place := Text.quoted f.path ++ (f.target.map (" -> " ++ Text.quoted ·)).getD ""
  "[Errno " ++ toString f.cause.number ++ "] " ++ f.cause.words ++ ": " ++ place

end StringAudit.Disk
