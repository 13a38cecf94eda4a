import StringAudit.Text.Lowercase
import StringAudit.Text.Numeral
import StringAudit.Yaml.Fault
import StringAudit.Yaml.Tag
import StringAudit.Yaml.Timestamp
import StringAudit.Yaml.Value

/-!
# The values of scalars

The value of a scalar is read from its text by the rules of its type.  A tag may give a scalar a type
whose form it does not have; then there may be no value.
-/

namespace StringAudit.Yaml.Scalar

open Text (Numeral.read lowercase trim)

/-- The value of a number that must be readable. -/
def required {α : Type} : Option α → Except ScalarFault α
  | some a => .ok a
  | none => .error .outOfRange

/-- The sum of the groups of a number in base sixty, first one leading. -/
def sexagesimal (groups : List Int) : Int :=
  groups.foldl (fun n g => n * 60 + g) 0

/-- A whole number without underscores and without its first sign. -/
def unsignedInt (s : List Char) : Except ScalarFault Int :=
  match s with
  | [] => .error .noDigits
  | ['0'] => .ok 0
  | '0' :: 'b' :: rest => required (Numeral.read 2 rest)
  | '0' :: 'x' :: rest => required (Numeral.read 16 rest)
  | '0' :: _ => required (Numeral.read 8 s)
  | _ =>
      match s.splitOn ':' with
      | [_] => required (Numeral.read 10 s)
      | groups => sexagesimal <$> required (groups.mapM (Numeral.read 10))

/-- A whole number. -/
def int (text : String) : Except ScalarFault Int :=
  match text.toList.filter (· ≠ '_') with
  | [] => .error .noDigits
  | '-' :: rest => (- ·) <$> unsignedInt rest
  | '+' :: rest => unsignedInt rest
  | s => unsignedInt s

/-- The digits of a text that consists of decimal digits of any script. -/
def decimals? (s : List Char) : Option (List Nat) :=
  s.mapM Text.Numeral.decimal?

/-- Whether a decimal number with or without a fraction and an exponent is zero; nothing if the text is
no such number. -/
def decimalIsZero? (s : List Char) : Option Bool := do
  let isMark := fun c => c = 'e' || c = 'E'
  let mantissa := s.takeWhile (!isMark ·)
  let exponent ←
    match s.dropWhile (!isMark ·) with
    | [] => some 0
    | _ :: rest =>
        match rest with
        | '-' :: ds => (decimals? ds).bind fun ds =>
            if ds = [] then none else some (-(Text.Numeral.ofDigits 10 ds : Int))
        | '+' :: ds => (decimals? ds).bind fun ds =>
            if ds = [] then none else some (Text.Numeral.ofDigits 10 ds : Int)
        | ds => (decimals? ds).bind fun ds =>
            if ds = [] then none else some (Text.Numeral.ofDigits 10 ds : Int)
  let whole := mantissa.takeWhile (· ≠ '.')
  let fraction := (mantissa.dropWhile (· ≠ '.')).drop 1
  let digits ← decimals? (whole ++ fraction)
  if digits = [] then none
  else pure (vanishes (Text.Numeral.ofDigits 10 digits) (exponent - fraction.length))

/-- The names of the numbers that are none. -/
def specialNumbers : List (List Char) :=
  ["inf", "infinity", "nan"].map String.toList

/-- Whether a number is zero; nothing if the text is no number. -/
def numberIsZero? (s : List Char) : Option Bool :=
  let s :=
    match trim s with
    | '+' :: rest => rest
    | '-' :: rest => rest
    | s => s
  if specialNumbers.contains s then some false else decimalIsZero? s

/-- Whether a number with a fraction is zero. -/
def floatIsZero (text : String) : Except ScalarFault Bool :=
  match (lowercase (text.toList.filter (· ≠ '_'))) with
  | [] => .error .noDigits
  | c :: rest =>
      let s := if c = '+' ∨ c = '-' then rest else c :: rest
      if s = ".inf".toList ∨ s = ".nan".toList then .ok false
      else (·.all id) <$> required ((s.splitOn ':').mapM numberIsZero?)

/-- The truth values by their words. -/
def truths : List (List Char × Bool) :=
  [("yes".toList, true), ("no".toList, false), ("true".toList, true), ("false".toList, false),
    ("on".toList, true), ("off".toList, false)]

/-- A truth value. -/
def bool (text : String) : Except ScalarFault Bool :=
  match truths.lookup (lowercase text.toList) with
  | some b => .ok b
  | none => .error .noTruthValue

/-- A point in time. -/
def timestamp (text : String) : Except ScalarFault Unit :=
  let s := text.toList
  match Timestamp.read? (if s.getLast? = some '\n' then s.dropLast else s) with
  | some t => if t.isPossible then .ok () else .error .outOfRange
  | none => .error .noTimestamp

/-- The groups of four characters of bytes in base 64 are counted by the characters read of the current
group and by the padding behind them.  The padding of the last group ends the text.  The result is
nothing if the last group is incomplete, and otherwise whether there are no bytes. -/
def base64From (filled pads : Nat) (isEmpty : Bool) : List Char → Option Bool
  | [] => if filled = 0 then some isEmpty else none
  | c :: rest =>
      if c = '=' then
        if 2 ≤ filled ∧ 4 ≤ filled + (pads + 1) then some isEmpty
        else base64From filled (if 2 ≤ filled then pads + 1 else pads) isEmpty rest
      else if c.isAlphanum || c = '+' || c = '/' then
        base64From ((filled + 1) % 4) 0 (isEmpty && filled = 0) rest
      else base64From filled pads isEmpty rest

/-- Whether bytes in base 64 are none. -/
def binaryIsEmpty (text : String) : Except Fault Bool :=
  if text.toList.all (·.toNat < 0x80) then
    match base64From 0 0 true text.toList with
    | some isEmpty => .ok isEmpty
    | none => .error .malformed
  else .error .malformed

/-- What is wrong with a scalar as a fault of the text. -/
def lift {α : Type} : Except ScalarFault α → Except Fault α
  | .ok a => .ok a
  | .error fault => .error (.scalar fault)

/-- The value of a scalar of a type; nothing if no scalar has the type. -/
def soundValue? (tag : Tag) (text : String) : Option (Except Fault Value) :=
  match tag with
  | .null => some (.ok .null)
  | .bool => some (.bool <$> lift (bool text))
  | .int => some (.int <$> lift (int text))
  | .float => some (.float <$> lift (floatIsZero text))
  | .binary => some (.binary <$> binaryIsEmpty text)
  | .timestamp => some ((fun _ => .timestamp) <$> lift (timestamp text))
  | .str => some (.ok (.text text))
  | _ => none

/-- The value of a scalar of a type, which may be torn.  A surrogate has no meaning in any type but that of
texts, as little as the replacement character has. -/
def value? (tag : Tag) (text : WideText) : Option (Except Fault Value) :=
  if tag = .str then some (.ok (.ofWide text)) else soundValue? tag text.plain

end StringAudit.Yaml.Scalar
