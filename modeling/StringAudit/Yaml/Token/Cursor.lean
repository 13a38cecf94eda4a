/-!
# Positions in a YAML text

A cursor is a position in a text together with what follows.  Columns count the characters of a line; a
byte order mark takes no column.  Lines end at the newline, the next-line character and the two Unicode
separators, of which the first two are one and the same in the value of a scalar.
-/

namespace StringAudit.Yaml

/-- A character that ends a line. -/
def isBreak (c : Char) : Bool :=
  c = '\n' || c = '\x85' || c = '\u2028' || c = '\u2029'

/-- A line break as it stands in the value of a scalar. -/
def breakValue (c : Char) : Char :=
  if c = '\x85' then '\n' else c

/-- A blank inside a line. -/
def isGap (c : Char) : Bool :=
  c = ' ' || c = '\t'

/-- Whether the next character, if there is one, is a blank or ends the line. -/
def atGap (s : List Char) : Bool :=
  match s with
  | [] => true
  | c :: _ => isGap c || isBreak c

/-- Whether the next character, if there is one, is a space or ends the line; a tab is neither. -/
def atSpace (s : List Char) : Bool :=
  match s with
  | [] => true
  | c :: _ => c = ' ' || isBreak c

/-- Whether nothing is left of the line. -/
def atBreak (s : List Char) : Bool :=
  match s with
  | [] => true
  | c :: _ => isBreak c

/-- Whether a text starts with the mark that begins or ends a document. -/
def atDocumentMark (s : List Char) : Bool :=
  (['-', '-', '-'].isPrefixOf s || ['.', '.', '.'].isPrefixOf s) && atGap (s.drop 3)

/-- A position in a text. -/
structure Cursor where
  /-- The characters that follow. -/
  rest : List Char
  index : Nat := 0
  line : Nat := 0
  column : Nat := 0
  deriving DecidableEq, Repr

namespace Cursor

/-- Move over one character. -/
def next (c : Cursor) : Cursor :=
  match c.rest with
  | [] => c
  | ch :: rest =>
      if isBreak ch then ⟨rest, c.index + 1, c.line + 1, 0⟩
      else ⟨rest, c.index + 1, c.line, if ch = '\uFEFF' then c.column else c.column + 1⟩

/-- Move over a number of characters. -/
def skip (c : Cursor) : Nat → Cursor
  | 0 => c
  | n + 1 => c.next.skip n

/-- The next character. -/
def peek (c : Cursor) : Option Char :=
  c.rest.head?

/-- The characters up to the first without a property, and the position behind them. -/
def span (c : Cursor) (p : Char → Bool) : List Char × Cursor :=
  let run := c.rest.takeWhile p
  (run, c.skip run.length)

/-- The position behind all characters with a property. -/
def skipWhile (c : Cursor) (p : Char → Bool) : Cursor :=
  (c.span p).2

/-- The next line break as it stands in a value, and the position behind it. -/
def lineBreak? (c : Cursor) : Option (Char × Cursor) :=
  match c.rest with
  | ch :: _ => if isBreak ch then some (breakValue ch, c.next) else none
  | [] => none

end Cursor

end StringAudit.Yaml
