import StringAudit.Yaml.Tag
import StringAudit.Yaml.Timestamp

/-!
# The types of plain scalars

A scalar without quotes and without a tag has the type that its form suggests: a number in one of several
notations, a truth value, a point in time, the empty value, the key of a merge; any other is a text.  A
line break at the end of the scalar does not matter.
-/

namespace StringAudit.Yaml.PlainForm

/-- Words in small letters, with a capital first letter, and in capitals. -/
def inAllCases (word : List Char) : List (List Char) :=
  let first := (word.take 1).map Char.toUpper
  [word, first ++ word.drop 1, word.map Char.toUpper]

/-- The truth values. -/
def truthWords : List (List Char) :=
  ["yes", "no", "true", "false", "on", "off"].flatMap fun word => inAllCases word.toList

/-- The empty values. -/
def nullWords : List (List Char) :=
  ['~'] :: [] :: inAllCases "null".toList

/-- What follows an optional sign. -/
def unsigned : List Char → List Char
  | '+' :: rest => rest
  | '-' :: rest => rest
  | s => s

/-- Whether a text is not empty and consists of digits in a base and of underscores. -/
def isDigits (base : Nat) (s : List Char) : Bool :=
  let isDigit := fun c : Char =>
    if c.isDigit then c.toNat - '0'.toNat < base
    else base = 16 && (('a' ≤ c && c ≤ 'f') || ('A' ≤ c && c ≤ 'F'))
  !s.isEmpty && s.all fun c => c = '_' || isDigit c

/-- Whether a text is a group of a number in base sixty behind the first group. -/
def isSixtieth : List Char → Bool
  | [d] => d.isDigit
  | [t, d] => '0' ≤ t && t ≤ '5' && d.isDigit
  | _ => false

/-- Whether a text starts with a digit and goes on in digits and underscores. -/
def isGrouped (s : List Char) : Bool :=
  s.head?.any Char.isDigit && isDigits 10 s

/-- Whether a text is a number in base sixty, whose first group is of the given form. -/
def isSexagesimal (isFirst : List Char → Bool) (s : List Char) : Bool :=
  match s.splitOn ':' with
  | first :: group :: groups => isFirst first && (group :: groups).all isSixtieth
  | _ => false

/-- Whether a text is a whole number. -/
def isInt (s : List Char) : Bool :=
  let positive := fun s : List Char => isGrouped s && s.head? ≠ some '0'
  match unsigned s with
  | '0' :: 'b' :: rest => isDigits 2 rest
  | '0' :: 'x' :: rest => isDigits 16 rest
  | ['0'] => true
  | '0' :: rest => isDigits 8 rest
  | rest => positive rest || isSexagesimal positive rest

/-- Whether a text is empty or an exponent with a sign. -/
def isExponent : List Char → Bool
  | [] => true
  | e :: sign :: rest =>
      (e = 'e' || e = 'E') && (sign = '+' || sign = '-') && !rest.isEmpty && rest.all Char.isDigit
  | _ => false

/-- Whether a text is a fraction, perhaps with an exponent. -/
def isFraction (s : List Char) : Bool :=
  isExponent (s.dropWhile fun c => c.isDigit || c = '_')

/-- Whether a text is a number with a fraction, or one of the special numbers. -/
def isFloat (s : List Char) : Bool :=
  let rest := unsigned s
  let whole := rest.takeWhile (· ≠ '.')
  match rest.dropWhile (· ≠ '.') with
  | [] => false
  | _ :: fraction =>
      if whole = [] then
        (inAllCases "inf".toList).contains fraction ||
          (s.head? = some '.' &&
            ((fraction.head?.any Char.isDigit && isFraction fraction) ||
              [['n', 'a', 'n'], ['N', 'a', 'N'], ['N', 'A', 'N']].contains fraction))
      else
        (isGrouped whole && isFraction fraction) ||
          (isSexagesimal isGrouped whole && fraction.all fun c => c.isDigit || c = '_')

/-- Whether a text is a point in time; without a time of day, month and day have two digits. -/
def isTimestamp (s : List Char) : Bool :=
  match Timestamp.read? s with
  | some t => t.padded || t.time.isSome
  | none => false

/-- The text without a newline at its end. -/
def withoutNewline (s : List Char) : List Char :=
  if s.getLast? = some '\n' then s.dropLast else s

end StringAudit.Yaml.PlainForm

namespace StringAudit.Yaml

/-- The type of a plain scalar. -/
def Tag.ofPlain (text : String) : Tag :=
  let s := PlainForm.withoutNewline text.toList
  if text = "" then .null
  else if PlainForm.truthWords.contains s then .bool
  else if PlainForm.isFloat s then .float
  else if PlainForm.isInt s then .int
  else if s = ['<', '<'] then .merge
  else if s ≠ [] ∧ PlainForm.nullWords.contains s then .null
  else if PlainForm.isTimestamp s then .timestamp
  else if s = ['='] then .value
  else if [['!'], ['&'], ['*']].contains s then .other
  else .str

end StringAudit.Yaml
