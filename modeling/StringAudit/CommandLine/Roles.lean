import StringAudit.CommandLine.Words

/-!
# The roles of arguments

Every argument has one role: it is an option, the value of the option in front of it, a root, the
separator of options and roots, or it means nothing.  The roots are one run of neighbouring arguments;
what is no option behind the end of that run means nothing.

`roles` gives the roles in the order of the arguments, one for each.
-/

namespace StringAudit.CommandLine

/-- What an argument is for. -/
inductive Role
  | help
  | switch (s : Switch)
  /-- An option with its value attached. -/
  | attached (v : Valued) (value : String)
  /-- An option whose value is the next argument. -/
  | announced (v : Valued)
  /-- The value of the option in front. -/
  | value (v : Valued)
  | root
  | separator
  /-- Nothing. -/
  | stray
  /-- Nothing, and the arguments are refused for it. -/
  | refused (error : UsageError)
  deriving DecidableEq, Repr

/-- How far the run of roots has come. -/
inductive RootRun
  | notBegun
  | going
  | ended
  deriving DecidableEq, Repr

/-- An option ends the run of roots. -/
def RootRun.interrupted : RootRun → RootRun
  | notBegun => notBegun
  | _ => ended

/-- The value that is left over from letters attached to the short help option: each further `h` is the
same option again. -/
def beyondHelp (letters : String) : Option String :=
  match letters.toList.dropWhile (· = 'h') with
  | [] => none
  | rest => some (String.ofList rest)

/-- The role of an option without a value of its own. -/
def plainRole (flag : Flag) (role : Role) (short : Bool) : Option String → Role
  | none => role
  | some attached =>
      if short ∧ attached ≠ "" then
        match beyondHelp attached with
        | none => role
        | some rest => .refused (.valueIgnored flag rest)
      else .refused (.valueIgnored flag attached)

/-- The roles of arguments. -/
def rolesFrom : RootRun → List (String × Word) → List Role
  | _, [] => []
  | .ended, (_, .operand) :: rest => .stray :: rolesFrom .ended rest
  | _, (_, .operand) :: rest => .root :: rolesFrom .going rest
  | .ended, (_, .separator) :: rest => .stray :: rolesFrom .ended rest
  | _, (_, .separator) :: rest => .separator :: rolesFrom .going rest
  | run, (_, .unknown) :: rest => .stray :: rolesFrom run.interrupted rest
  | run, (_, .option .help short attached) :: rest =>
      plainRole .help .help short attached :: rolesFrom run.interrupted rest
  | run, (_, .option (.switch s) short attached) :: rest =>
      plainRole (.switch s) (.switch s) short attached :: rolesFrom run.interrupted rest
  | run, (_, .option (.valued v) _ (some value)) :: rest =>
      .attached v value :: rolesFrom run.interrupted rest
  | run, (_, .option (.valued v) _ none) :: (_, .operand) :: rest =>
      .announced v :: .value v :: rolesFrom run.interrupted rest
  | run, (_, .option (.valued v) _ none) :: rest =>
      .refused (.valueMissing v) :: rolesFrom run.interrupted rest

/-- The roles of arguments. -/
def roles (args : List (String × Word)) : List Role :=
  rolesFrom .notBegun args

end StringAudit.CommandLine
