import StringAudit.Charset.Fault
import StringAudit.Disk.Fault
import StringAudit.Text.Wide
import StringAudit.Yaml.Fault

/-!
# Failures

The ways in which an audit can fail.  The failures of the first kind have a message for the user; most of
them end a run.  A breakdown has none: it is a fault that nobody handles.
-/

namespace StringAudit

/-- The faults that nobody handles. -/
inductive Breakdown
  /-- A path holds the character U+0000. -/
  | unusablePath
  /-- The name of a character set holds the character U+0000. -/
  | unusableCharset
  /-- The name of a character set is torn. -/
  | tornCharset
  /-- A character set is known, but not even the empty text can be written in it. -/
  | brokenCharset (reason : String)
  /-- A pool without workers was given work. -/
  | noWorkers
  /-- A setting has a key that is no text. -/
  | keyNotText
  /-- An option that is needed was set to nothing. -/
  | optionEmptied
  /-- The settings file is not UTF-8. -/
  | undecodable (fault : DecodeFault)
  /-- The settings file cannot even be looked for. -/
  | unreachable (fault : Disk.Fault)
  /-- A scalar of the settings file is not of its type. -/
  | badScalar (fault : Yaml.ScalarFault)
  deriving DecidableEq, Repr

/-- The ways in which an audit can fail. -/
inductive Failure
  /-- A directory cannot be listed. -/
  | unlistable (path reason : String)
  /-- A file cannot be read as text. -/
  | unreadable (path reason : String)
  /-- An identifier line has no closing quote. -/
  | unclosed (line : String) (path : Option String) (number : Option Int)
  /-- A text could not even be reported as lost. -/
  | unreportable (text : String)
  /-- A file cannot be replaced. -/
  | unwritable (path reason : String)
  /-- The settings are refused.  What they hold may be torn, and then the reason that quotes it is. -/
  | badSettings (reason : WideText)
  /-- A fault that nobody handles. -/
  | breakdown (cause : Breakdown)
  deriving DecidableEq, Repr

namespace Failure

/-- What is said of a path, with the reason in brackets if there is one. -/
def about (what path reason : String) : String :=
  what ++ ": " ++ path ++ if reason = "" then "" else " (" ++ reason ++ ")"

/-- Where an identifier line stands: nothing if the path is not known or empty, and no number if it is
not known or zero. -/
def position (path : Option String) (number : Option Int) : String :=
  match path with
  | none | some "" => ""
  | some path =>
      match number with
      | none | some 0 => path ++ ": "
      | some number => path ++ ":" ++ toString number ++ ": "

/-- The message of a failure. -/
def message : Failure → String
  | unlistable path reason => about "cannot enumerate directory" path reason
  | unreadable path reason => about "cannot read file" path reason
  | unclosed line path number =>
      position path number ++ "identifier line has no closing quote: " ++ Text.quoted line
  | unreportable text => text
  | unwritable path reason => about "cannot write file" path reason
  | badSettings reason => reason.plain
  | breakdown _ => ""

/-- The message of a failure as it is reported. -/
def report : Failure → WideText
  | badSettings reason => reason
  | failure => failure.message

end Failure

end StringAudit
