import StringAudit.Text.Blank

/-!
# Whole numbers in text

A numeral may stand between blanks, may carry a sign, may group its digits with single underscores and
may use the decimal digits of any script.  In base 16, 8 and 2 it may start with `0x`, `0o` or `0b`.
`Numeral.read` gives the number, or nothing if the text is no numeral.
-/

namespace StringAudit.Text.Numeral

/-- The digit zero of every script; the digits one to nine follow it. -/
def zeros : List Nat :=
  [0x30, 0x660, 0x6F0, 0x7C0, 0x966, 0x9E6, 0xA66, 0xAE6, 0xB66, 0xBE6, 0xC66, 0xCE6,
  0xD66, 0xDE6, 0xE50, 0xED0, 0xF20, 0x1040, 0x1090, 0x17E0, 0x1810, 0x1946, 0x19D0, 0x1A80,
  0x1A90, 0x1B50, 0x1BB0, 0x1C40, 0x1C50, 0xA620, 0xA8D0, 0xA900, 0xA9D0, 0xA9F0, 0xAA50, 0xABF0,
  0xFF10, 0x104A0, 0x10D30, 0x11066, 0x110F0, 0x11136, 0x111D0, 0x112F0, 0x11450, 0x114D0, 0x11650, 0x116C0,
  0x11730, 0x118E0, 0x11950, 0x11C50, 0x11D50, 0x11DA0, 0x16A60, 0x16AC0, 0x16B50, 0x1D7CE, 0x1D7D8, 0x1D7E2,
  0x1D7EC, 0x1D7F6, 0x1E140, 0x1E2F0, 0x1E950, 0x1FBF0]

/-- The value of a decimal digit of any script. -/
def decimal? (c : Char) : Option Nat :=
  (zeros.find? fun z => z ≤ c.toNat && c.toNat < z + 10).map (c.toNat - ·)

/-- The value of a digit in bases up to 36: a decimal digit, or a Latin letter from ten on. -/
def digit? (c : Char) : Option Nat :=
  if 'a' ≤ c && c ≤ 'z' then some (c.toNat - 'a'.toNat + 10)
  else if 'A' ≤ c && c ≤ 'Z' then some (c.toNat - 'A'.toNat + 10)
  else decimal? c

/-- The digits of a numeral in their order; underscores may stand only between two digits. -/
def digits? (base : Nat) : List Char → Option (List Nat)
  | [] => none
  | [c] => ((digit? c).filter (· < base)).map ([·])
  | c :: '_' :: rest => do
      let d ← (digit? c).filter (· < base)
      let ds ← digits? base rest
      pure (d :: ds)
  | c :: rest => do
      let d ← (digit? c).filter (· < base)
      let ds ← digits? base rest
      pure (d :: ds)

/-- The number written by digits, the first one leading. -/
def ofDigits (base : Nat) (ds : List Nat) : Nat :=
  ds.foldl (fun n d => n * base + d) 0

/-- The most digits that a decimal numeral may have. -/
def maxDecimalDigits : Nat :=
  4300

/-- What remains after the mark `0x`, `0o` or `0b` of its base, if the text starts with it. -/
def dropMark (base : Nat) : List Char → List Char
  | '0' :: m :: rest =>
      let marked := (base = 16 && (m = 'x' || m = 'X')) || (base = 8 && (m = 'o' || m = 'O')) ||
        (base = 2 && (m = 'b' || m = 'B'))
      if marked then (if rest.head? = some '_' then rest.tail else rest) else '0' :: m :: rest
  | s => s

/-- The number that a text without a sign writes. -/
def readUnsigned (base : Nat) (s : List Char) : Option Nat :=
  match digits? base (dropMark base s) with
  | some ds => if base = 10 ∧ maxDecimalDigits < ds.length then none else some (ofDigits base ds)
  | none => none

/-- The number that a text writes in the given base. -/
def read (base : Nat) (s : List Char) : Option Int :=
  match trim s with
  | '-' :: rest => (readUnsigned base rest).map fun n => -(n : Int)
  | '+' :: rest => (readUnsigned base rest).map fun n => (n : Int)
  | rest => (readUnsigned base rest).map fun n => (n : Int)

end StringAudit.Text.Numeral
