import StringAudit.Text.Wide

/-!
# YAML values

The values that a document can stand for.  Of a number with a fraction only whether it is zero is kept,
of bytes only whether there are none, and of a point in time nothing: no more than that is ever asked.
-/

namespace StringAudit.Yaml

/-- A value. -/
inductive Value
  | null
  | bool (b : Bool)
  | int (n : Int)
  | float (isZero : Bool)
  | text (s : String)
  /-- A text with a surrogate, which an escape can name. -/
  | torn (t : Torn)
  | binary (isEmpty : Bool)
  | timestamp
  | sequence (items : List Value)
  /-- A mapping; of entries with one key the last one counts. -/
  | mapping (entries : List (Value × Value))
  | set (members : List Value)
  /-- A collection around this place, which holds itself through an alias. -/
  | enclosing
  deriving Inhabited

namespace Value

/-- Whether a value counts as nothing: the empty value, false, zero, and every empty text or
collection. -/
def isVoid : Value → Bool
  | null => true
  | bool b => !b
  | int n => n == 0
  | float isZero => isZero
  | text s => s.isEmpty
  | torn _ => false
  | binary isEmpty => isEmpty
  | timestamp => false
  | sequence items => items.isEmpty
  | mapping entries => entries.isEmpty
  | set members => members.isEmpty
  | enclosing => false

/-- Whether a value can be the key of a mapping: collections cannot. -/
def canBeKey : Value → Bool
  | sequence _ => false
  | mapping _ => false
  | set _ => false
  | enclosing => false
  | _ => true

/-- A wide text as a value. -/
def ofWide : WideText → Value
  | .sound s => text s
  | .torn t => torn t

/-- The wide text that a value is. -/
def wide? : Value → Option WideText
  | text s => some s
  | torn t => some (.torn t)
  | _ => none

/-- The text that a value is, unless it is torn. -/
def text? : Value → Option String
  | text s => some s
  | _ => none

/-- The last value under a key that is a text. -/
def valueOf? (key : String) (entries : List (Value × Value)) : Option Value :=
  (entries.reverse.find? fun e => e.1.text? = some key).map (·.2)

end Value

/-- Whether a positive decimal number, the given digits times a power of ten, is nearer to zero than to
any other double-precision number. -/
def vanishes (digits : Nat) (exponent : Int) : Bool :=
  let places := (Nat.toDigits 10 digits).length
  digits = 0 ||
    (exponent < 0 &&
      (places + 400 < exponent.natAbs || digits * Nat.pow 2 1075 ≤ Nat.pow 10 exponent.natAbs))

end StringAudit.Yaml
