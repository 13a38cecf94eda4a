import StringAudit.Cleanup
import StringAudit.CommandLine.Parse
import StringAudit.CommandLine.Usage
import StringAudit.Detection
import StringAudit.Report.Document
import StringAudit.Report.Plain
import StringAudit.Settings.File

/-!
# A run of the program

A run reads its arguments and its settings, searches, reports, and in the end saves the report as a
document and cleans the resource files, if it is asked to.  Only these last two steps change the disk,
and they are not reached unless all before has succeeded.

A run ends in success, in a failure that has been reported on standard error, or in a refusal of its
arguments.  A failure that nobody reports ends the action.
-/

namespace StringAudit.CommandLine

/-- How a run ends. -/
inductive Exit
  | success
  | failure
  | refusal
  deriving DecidableEq, Repr

/-- The exit code. -/
def Exit.code : Exit → Nat
  | success => 0
  | failure => 1
  | refusal => 2

variable [Codecs] [Yaml.Loader]

/-- Report a failure and end the run; what cannot be reported ends the action. -/
def fail (err : Writer) (failure : Failure) : Action Exit :=
  match failure with
  | .breakdown _ | .unreportable _ => throw failure
  | _ => do
      err.putLine ("error: " ++ failure.report)
      pure .failure

/-- The value of an option, if it is set; setting it to nothing is a breakdown. -/
def Setting.get? {α : Type} : Setting α → Except Failure (Option α)
  | unset => .ok none
  | emptied => .error (.breakdown .optionEmptied)
  | given value => .ok (some value)

/-- The settings that the options ask for. -/
def settings (options : Options) : Action Settings := do
  let path ← Action.ofResult options.config.get?
  Action.ask (Settings.load path none)

/-- The number of workers, which the options say, or else the settings. -/
def workers (options : Options) (settings : Settings) : Except Failure (Option Int) := do
  return (← options.workers.get?).or settings.workers

/-- What is said of a number of workers that is not positive. -/
def workersNotPositive : Failure :=
  .badSettings "--workers must be a positive integer"

/-- The audit that options and settings ask for; a quiet one has nothing but its report to say. -/
def audit (options : Options) (settings : Settings) (workers : Option Int) : Audit :=
  let chatter := fun writer => if options.quiet then none else some writer
  { ignored := settings.ignored
    allowed := settings.allowed
    workers
    progress := chatter (Writer.out settings.charset)
    notes := chatter (Writer.err settings.charset) }

/-- What is said in front of a search. -/
def banner : String :=
  "Searching for abandoned resource strings..."

/-- The path of the document, if one is asked for. -/
def documentPath? (options : Options) : Option String :=
  match options.json with
  | .given path => if path = "" then none else some path
  | _ => none

/-- Save the document of findings, and report on a path where that is not possible. -/
def saveDocument (err : Writer) (document : Report.Document) (path : String) : Action Unit := do
  match ← (document.save path).outcome with
  | .error (.unwritable _ reason) =>
      err.writeLine ("ERROR writing report: " ++ path ++ " (" ++ reason ++ ")")
  | outcome => Action.ofResult outcome

/-- Report findings and do what else is asked for. -/
def conclude (stamp : Report.Stamp) (options : Options) (settings : Settings) (findings : Findings) :
    Action Unit := do
  let out := Writer.out settings.charset
  let err := Writer.err settings.charset
  Report.display out findings
  if let some path := documentPath? options then
    saveDocument err (.of stamp options.roots options.storyboards findings) path
  if options.write && !findings.isEmpty then
    discard (Cleanup.apply ⟨settings.charset, some out, some err⟩ findings)

/-- Search and conclude. -/
def search (stamp : Report.Stamp) (options : Options) (settings : Settings) (audit : Audit) :
    Action Exit := do
  Writer.announce audit.progress banner
  match ← (audit.detect options.roots options.storyboards).outcome with
  | .error failure => fail (Writer.err settings.charset) failure
  | .ok findings =>
      conclude stamp options settings findings
      pure .success

/-- Run with options. -/
def runOptions (stamp : Report.Stamp) (options : Options) : Action Exit := do
  match ← (settings options).outcome with
  | .error failure => fail (Writer.err Settings.usualCharset) failure
  | .ok settings =>
      let workers ← Action.ofResult (workers options settings)
      if workers.any (· < 1) then fail (Writer.err settings.charset) workersNotPositive
      else search stamp options settings (audit options settings workers)

/-- Write a text as it is. -/
def printTo (outlet : Outlet) (text : String) : Action Unit :=
  Action.onStream outlet (·.send (Charset.Utf8.encode text.toList))

/-- Run with arguments. -/
def run (stamp : Report.Stamp) (args : List String) : Action Exit := do
  match request args with
  | .help =>
      printTo .out help
      pure .success
  | .refused error =>
      printTo .err (complaint error.message)
      pure .refusal
  | .accepted options =>
      if options.roots = [] then
        (Writer.out Settings.usualCharset).writeLine rootsMissing
        pure .success
      else runOptions stamp options

end StringAudit.CommandLine
