import StringAudit.CommandLine.Options
import StringAudit.Text.Numeral

/-!
# Telling options from other arguments

An argument is an option if it is spelled like one, if it is the beginning of exactly one long spelling,
or if it starts with a dash and is neither a negative number nor has a blank in it; in the last case it
is an option that is not known.  A value may be attached to an option behind an equals sign, and to the
one short option without it.  Behind the first argument `--` there are no options.
-/

namespace StringAudit.CommandLine

/-- What an argument is, seen on its own. -/
inductive Word
  /-- A root or the value of an option. -/
  | operand
  /-- The separator `--`. -/
  | separator
  /-- An option with the value attached to it; `short` if it was spelled with one dash. -/
  | option (flag : Flag) (short : Bool) (attached : Option String)
  /-- An option that is not known. -/
  | unknown
  deriving DecidableEq, Repr

/-- The option with exactly this spelling. -/
def spelled? (arg : String) : Option Flag :=
  spellings.lookup arg

/-- What stands in front of the first equals sign and behind it. -/
def splitAtEquals (arg : String) : String × Option String :=
  let name := arg.toList.takeWhile (· ≠ '=')
  match arg.toList.dropWhile (· ≠ '=') with
  | [] => (String.ofList name, none)
  | _ :: value => (String.ofList name, some (String.ofList value))

/-- An option that an argument may mean: its spelling, the option, and the value attached to it. -/
structure Candidate where
  spelling : String
  flag : Flag
  attached : Option String
  deriving DecidableEq, Repr

/-- Whether a spelling has one dash. -/
def isShort (spelling : String) : Bool :=
  !spelling.startsWith "--"

/-- The word for a candidate. -/
def Candidate.word (c : Candidate) : Word :=
  .option c.flag (isShort c.spelling) c.attached

/-- The options that an argument may mean when it is spelled like none. -/
def candidates (arg : String) : List Candidate :=
  if arg.startsWith "--" then
    let (beginning, attached) := splitAtEquals arg
    (spellings.filter fun s => s.1.startsWith beginning).map fun s => ⟨s.1, s.2, attached⟩
  else
    let start := String.ofList (arg.toList.take 2)
    let tail := String.ofList (arg.toList.drop 2)
    (spellings.filter fun s => s.1 = start).map fun s => ⟨s.1, s.2, some tail⟩

/-- Whether a text is digits, perhaps with a full stop in front of the last of them. -/
def isDecimal (s : List Char) : Bool :=
  let isDigit := fun c => (Text.Numeral.decimal? c).isSome
  let tail := s.dropWhile isDigit
  match tail with
  | [] => !s.isEmpty
  | '.' :: fraction => !fraction.isEmpty && fraction.all isDigit
  | _ => false

/-- Whether an argument is a negative number; a newline at its end does not matter. -/
def isNegativeNumber (arg : String) : Bool :=
  match arg.toList with
  | '-' :: rest => isDecimal (if rest.getLast? = some '\n' then rest.dropLast else rest)
  | _ => false

/-- What an argument in front of the separator is. -/
def classify (arg : String) : Except UsageError Word :=
  if !arg.startsWith "-" then .ok .operand
  else match spelled? arg with
    | some flag => .ok (.option flag (isShort arg) none)
    | none =>
      if arg = "-" then .ok .operand
      else
        let (name, attached) := splitAtEquals arg
        match if attached.isSome then spelled? name else none with
        | some flag => .ok (.option flag (isShort name) attached)
        | none =>
          match candidates arg with
          | [c] => .ok c.word
          | [] =>
              if isNegativeNumber arg || arg.toList.contains ' ' then .ok .operand else .ok .unknown
          | several => .error (.ambiguous arg (several.map (·.spelling)))

/-- What each argument is. -/
def words : List String → Except UsageError (List (String × Word))
  | [] => .ok []
  | arg :: rest =>
      if arg = "--" then .ok ((arg, .separator) :: rest.map fun a => (a, .operand))
      else do
        let word ← classify arg
        let others ← words rest
        pure ((arg, word) :: others)

end StringAudit.CommandLine
