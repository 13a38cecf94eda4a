import StringAudit.Text.Quoted

/-!
# Options

The options of the command line, what they can be set to, and what can be wrong with their use.
-/

namespace StringAudit.CommandLine

/-- An option that is on or off. -/
inductive Switch
  | storyboards
  | write
  | quiet
  deriving DecidableEq, Repr

/-- An option with a value. -/
inductive Valued
  | workers
  | config
  | json
  deriving DecidableEq, Repr

/-- An option. -/
inductive Flag
  | help
  | switch (s : Switch)
  | valued (v : Valued)
  deriving DecidableEq, Repr

/-- The spellings of the options, in the order in which a message lists them. -/
def spellings : List (String × Flag) :=
  [("-h", .help), ("--help", .help), ("--storyboard", .switch .storyboards), ("--write", .switch .write),
    ("--workers", .valued .workers), ("--config", .valued .config), ("--json", .valued .json),
    ("--quiet", .switch .quiet)]

/-- The name by which a message calls an option. -/
def Flag.name (flag : Flag) : String :=
  "/".intercalate ((spellings.filter (·.2 = flag)).map (·.1))

/-- What an option with a value was set to.  A value that is only the separator of options and roots is
dropped, and leaves the option set to nothing. -/
inductive Setting (α : Type)
  | unset
  | emptied
  | given (value : α)
  deriving DecidableEq, Repr

/-- What the command line asks for. -/
structure Options where
  roots : List String := []
  storyboards : Bool := false
  write : Bool := false
  quiet : Bool := false
  workers : Setting Int := .unset
  config : Setting String := .unset
  json : Setting String := .unset
  deriving DecidableEq, Repr

/-- What can be wrong with the arguments. -/
inductive UsageError
  /-- An abbreviation of several options. -/
  | ambiguous (arg : String) (candidates : List String)
  /-- An option without its value. -/
  | valueMissing (v : Valued)
  /-- A number of workers that is no number. -/
  | notInteger (value : String)
  /-- A value for an option that has none. -/
  | valueIgnored (flag : Flag) (value : String)
  /-- Arguments that mean nothing. -/
  | unrecognized (args : List String)
  deriving DecidableEq, Repr

/-- The message of an error. -/
def UsageError.message : UsageError → String
  | ambiguous arg candidates =>
      "ambiguous option: " ++ arg ++ " could match " ++ ", ".intercalate candidates
  | valueMissing v => "argument " ++ (Flag.valued v).name ++ ": expected one argument"
  | notInteger value =>
      "argument " ++ (Flag.valued .workers).name ++ ": invalid int value: " ++ Text.quoted value
  | valueIgnored flag value =>
      "argument " ++ flag.name ++ ": ignored explicit argument " ++ Text.quoted value
  | unrecognized args => "unrecognized arguments: " ++ " ".intercalate args

end StringAudit.CommandLine
