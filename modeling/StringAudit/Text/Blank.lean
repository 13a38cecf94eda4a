/-!
# Blank characters

A blank is a character that carries no content at the two ends of a line.  The class is the Unicode
white space together with the four information separators U+001C to U+001F; the zero-width space
U+200B, the word joiner U+2060 and the byte order mark U+FEFF are not blank.

`trim` drops the blanks at both ends and keeps those inside.
-/

namespace StringAudit.Text

/-- A character that is dropped at the ends of a line. -/
def isBlank (c : Char) : Bool :=
  let n := c.toNat
  (0x09 ≤ n && n ≤ 0x0D) || (0x1C ≤ n && n ≤ 0x20) || n == 0x85 || n == 0xA0 || n == 0x1680 ||
    (0x2000 ≤ n && n ≤ 0x200A) || n == 0x2028 || n == 0x2029 || n == 0x202F || n == 0x205F ||
    n == 0x3000

/-- The text from its first character that is not blank. -/
def trimStart (s : List Char) : List Char :=
  s.dropWhile isBlank

/-- The text up to its last character that is not blank. -/
def trimEnd (s : List Char) : List Char :=
  (s.reverse.dropWhile isBlank).reverse

/-- The text without the blanks at its two ends. -/
def trim (s : List Char) : List Char :=
  trimEnd (trimStart s)

@[simp]
theorem trim_nil : trim [] = [] :=
  rfl

end StringAudit.Text
