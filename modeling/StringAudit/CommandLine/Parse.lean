import StringAudit.CommandLine.BareWords
import StringAudit.CommandLine.Roles

/-!
# Reading the command line

The arguments are read from left to right by their roles.  The first call for help ends the reading, and
so does the first error; arguments that mean nothing are an error only at the end.
-/

namespace StringAudit.CommandLine

/-- What the arguments come to. -/
inductive Request
  | help
  | refused (error : UsageError)
  | accepted (options : Options)
  deriving DecidableEq, Repr

/-- Set an option to a value; `--` is no value. -/
def Options.set (options : Options) (v : Valued) (value : String) : Except UsageError Options :=
  let text := if value = "--" then Setting.emptied else .given value
  match v with
  | .config => .ok { options with config := text }
  | .json => .ok { options with json := text }
  | .workers =>
      if value = "--" then .ok { options with workers := .emptied }
      else match Text.Numeral.read 10 value.toList with
        | some n => .ok { options with workers := .given n }
        | none => .error (.notInteger value)

/-- Turn a switch on. -/
def Options.turnOn (options : Options) : Switch → Options
  | .storyboards => { options with storyboards := true }
  | .write => { options with write := true }
  | .quiet => { options with quiet := true }

/-- Read arguments with their roles; `strays` are the arguments without a meaning so far, last one
first. -/
def interpret (options : Options) (strays : List String) : List (String × Role) → Request
  | [] => if strays = [] then .accepted options else .refused (.unrecognized strays.reverse)
  | (_, .help) :: _ => .help
  | (_, .refused error) :: _ => .refused error
  | (_, .switch s) :: rest => interpret (options.turnOn s) strays rest
  | (_, .attached v value) :: rest =>
      match options.set v value with
      | .ok options => interpret options strays rest
      | .error error => .refused error
  | (value, .value v) :: rest =>
      match options.set v value with
      | .ok options => interpret options strays rest
      | .error error => .refused error
  | (_, .announced _) :: rest => interpret options strays rest
  | (_, .separator) :: rest => interpret options strays rest
  | (arg, .root) :: rest => interpret { options with roots := options.roots ++ [arg] } strays rest
  | (arg, .stray) :: rest => interpret options (arg :: strays) rest

/-- Read arguments without bare words. -/
def parse (args : List String) : Request :=
  match words args with
  | .error error => .refused error
  | .ok marked => interpret {} [] (args.zip (roles marked))

/-- Read all arguments: a bare word counts as its switch. -/
def request (args : List String) : Request :=
  let bare := splitBareWords args
  match parse bare.remaining with
  | .accepted options =>
      .accepted { options with
        storyboards := options.storyboards || bare.storyboards
        write := options.write || bare.write }
  | other => other

end StringAudit.CommandLine
