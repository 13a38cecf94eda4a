import StringAudit.Text.Printable

/-!
# Quoted texts

A message shows a text in quotes: single ones, unless the text has a single quote and no double quote.
The enclosing quote and the backslash are escaped, the tab, the newline and the carriage return have
letters, and every other character that is not shown as itself is written by its code point in two,
four or eight hexadecimal digits.  `quoted` shows printable characters as themselves, `quotedAscii` only
those of ASCII.
-/

namespace StringAudit.Text

/-- The apostrophe. -/
def apostrophe : Char :=
  '\x27'

/-- A number in hexadecimal, padded with zeros to at least the given width. -/
def hexadecimal (width n : Nat) : List Char :=
  let digits := Nat.toDigits 16 n
  List.replicate (width - digits.length) '0' ++ digits

/-- The escape of a character by its code point. -/
def codePointEscape (c : Char) : List Char :=
  let n := c.toNat
  if n < 0x100 then '\\' :: 'x' :: hexadecimal 2 n
  else if n < 0x10000 then '\\' :: 'u' :: hexadecimal 4 n
  else '\\' :: 'U' :: hexadecimal 8 n

/-- The quote that encloses a text. -/
def quoteMark (s : List Char) : Char :=
  if s.contains apostrophe && !s.contains '"' then '"' else apostrophe

/-- One character inside the quotes `mark`; `plain` tells which are shown as themselves. -/
def quotedChar (plain : Char → Bool) (mark c : Char) : List Char :=
  if c = mark ∨ c = '\\' then ['\\', c]
  else if c = '\t' then ['\\', 't']
  else if c = '\n' then ['\\', 'n']
  else if c = '\r' then ['\\', 'r']
  else if plain c then [c]
  else codePointEscape c

/-- A text in quotes. -/
def quotedWith (plain : Char → Bool) (s : String) : String :=
  let mark := quoteMark s.toList
  String.ofList (mark :: s.toList.flatMap (quotedChar plain mark) ++ [mark])

/-- A text in quotes, its printable characters shown as themselves. -/
def quoted (s : String) : String :=
  quotedWith isPrintable s

/-- Whether a character is printable and in ASCII. -/
def isPlainAscii (c : Char) : Bool :=
  0x20 ≤ c.toNat && c.toNat < 0x7F

/-- A text in quotes, written in ASCII alone. -/
def quotedAscii (s : String) : String :=
  quotedWith isPlainAscii s

end StringAudit.Text
