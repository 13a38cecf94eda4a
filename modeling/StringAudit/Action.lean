import StringAudit.Console
import StringAudit.Disk.Basic
import StringAudit.Failure

/-!
# Actions

An action reads and changes the disk and writes to the streams of a run, and it ends with a value or a
failure.  What it has done before a failure stays done.
-/

namespace StringAudit

/-- The state of a run: the disk and the streams. -/
structure RunState where
  disk : Disk
  console : Console := {}
  deriving DecidableEq, Repr

/-- A change of the state of a run that ends with a value or a failure. -/
abbrev Action (α : Type) :=
  ExceptT Failure (StateM RunState) α

namespace Action

/-- Run an action. -/
def perform {α : Type} (action : Action α) (state : RunState) : Except Failure α × RunState :=
  action.run.run state

/-- A value or a failure as an action that changes nothing. -/
def ofResult {α : Type} : Except Failure α → Action α
  | .ok a => pure a
  | .error failure => throw failure

/-- Look something up on the disk. -/
def ask {α : Type} (look : Disk → Except Failure α) : Action α := do
  ofResult (look (← get).disk)

/-- Change the disk. -/
def onDisk {α : Type} (change : Disk → Except Failure α × Disk) : Action α := do
  let state ← get
  let (result, disk) := change state.disk
  set { state with disk }
  ofResult result

/-- Change the stream at an outlet. -/
def onStream (outlet : Outlet) (change : Stream → Stream) : Action Unit :=
  modify fun state => { state with console := state.console.change outlet change }

/-- The outcome of an action as a value. -/
def outcome {α : Type} (action : Action α) : Action (Except Failure α) :=
  tryCatch (Except.ok <$> action) fun failure => pure (.error failure)

end Action

end StringAudit
