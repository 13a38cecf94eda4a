import StringAudit.Yaml.Fault
import StringAudit.Yaml.Token.Cursor

/-!
# Block scalars

A block scalar takes whole lines of one indentation.  A literal one keeps its line breaks, a folded one
joins neighbouring lines that do not start with a blank.  Its header may give the indentation, and may
ask to strip or to keep the line breaks at the end; otherwise one of them stays.
-/

namespace StringAudit.Yaml.Block

/-- What happens to the line breaks at the end. -/
inductive Chomping
  /-- None stays. -/
  | strip
  /-- One stays. -/
  | clip
  /-- All stay. -/
  | keep
  deriving DecidableEq, Repr

/-- A header. -/
structure Header where
  chomping : Chomping := .clip
  /-- The indentation beyond that of the surrounding block. -/
  indent : Option Nat := none
  deriving DecidableEq, Repr

/-- The chomping that a sign asks for. -/
def chomping? : List Char → Option Chomping
  | '+' :: _ => some .keep
  | '-' :: _ => some .strip
  | _ => none

/-- The indentation that a digit gives; zero is a fault. -/
def indent? : List Char → Except Fault (Option Nat)
  | c :: _ =>
      if c = '0' then .error .malformed
      else if '1' ≤ c ∧ c ≤ '9' then .ok (some (c.toNat - '0'.toNat))
      else .ok none
  | [] => .ok none

/-- The header behind the sign of a block scalar, and the position behind it: a sign and a digit, in
either order. -/
def header (c : Cursor) : Except Fault (Header × Cursor) := do
  match chomping? c.rest with
  | some chomping =>
      match ← indent? c.next.rest with
      | some n => pure (⟨chomping, some n⟩, c.skip 2)
      | none => pure (⟨chomping, none⟩, c.next)
  | none =>
      match ← indent? c.rest with
      | some n =>
          match chomping? c.next.rest with
          | some chomping => pure (⟨chomping, some n⟩, c.skip 2)
          | none => pure (⟨.clip, some n⟩, c.next)
      | none => pure ({}, c)

/-- The position behind a line of which nothing but a comment may be left. -/
def finishLine (c : Cursor) : Except Fault Cursor :=
  let c := c.skipWhile (· = ' ')
  let c := if c.peek = some '#' then c.skipWhile (!isBreak ·) else c
  if atBreak c.rest then .ok c.next else .error .malformed

/-- The empty lines that start in a column: how many characters they are, their line breaks, and the
largest column that their spaces reach. -/
def leadingLines (column : Nat) : List Char → Nat × List Char × Nat
  | [] => (0, [], 0)
  | c :: rest =>
      if c = ' ' then
        let (n, breaks, widest) := leadingLines (column + 1) rest
        (n + 1, breaks, max widest (column + 1))
      else if isBreak c then
        let (n, breaks, widest) := leadingLines 0 rest
        (n + 1, breakValue c :: breaks, widest)
      else (0, [], 0)

/-- The empty lines that start in a column and the spaces up to an indentation: how many characters they
are, and their line breaks. -/
def emptyLines (indent column : Nat) : List Char → Nat × List Char
  | [] => (0, [])
  | c :: rest =>
      if c = ' ' ∧ column < indent then
        let (n, breaks) := emptyLines indent (column + 1) rest
        (n + 1, breaks)
      else if isBreak c then
        let (n, breaks) := emptyLines indent 0 rest
        (n + 1, breakValue c :: breaks)
      else (0, [])

/-- Whether a further line of the scalar starts here. -/
def goesOn (indent : Nat) (c : Cursor) : Bool :=
  c.column = indent && !c.rest.isEmpty

/-- What the break between two lines counts as. -/
def joint (isFolded : Bool) (ended : List Char) (line next : List Char) (breaks : List Char) : List Char :=
  let indented := fun s : List Char => s.head?.any isGap
  if isFolded && ended = ['\n'] && !indented line && !indented next then
    (if breaks = [] then [' '] else [])
  else ended

/-- The lines of a scalar: its text, the break that ended the last line, the breaks behind that one, and
the position behind them. -/
structure Lines where
  text : List Char
  ended : List Char
  breaks : List Char
  cursor : Cursor

/-- The lines from a position on, behind empty lines with the given breaks.  The fuel bounds the number
of lines. -/
def linesFrom (isFolded : Bool) (indent : Nat) : Nat → Lines → Lines
  | 0, before => before
  | n + 1, before =>
      if goesOn indent before.cursor then
        let (line, c) := before.cursor.span (!isBreak ·)
        let (ended, c) :=
          match c.lineBreak? with
          | some (value, c) => ([value], c)
          | none => ([], c)
        let (count, breaks) := emptyLines indent c.column c.rest
        let c := c.skip count
        let text := before.text ++ before.breaks ++ line
        if goesOn indent c then
          linesFrom isFolded indent n
            ⟨text ++ joint isFolded ended (before.cursor.rest) c.rest breaks, ended, breaks, c⟩
        else ⟨text, ended, breaks, c⟩
      else before

/-- The block scalar at a position, in a block of the given indentation. -/
def scan (isFolded : Bool) (indent : Int) (c : Cursor) : Except Fault (List Char × Cursor) := do
  let (header, c) ← header c.next
  if !atSpace c.rest then throw .malformed
  let c ← finishLine c
  let least := max (indent + 1).toNat 1
  let (own, start) :=
    match header.indent with
    | some n =>
        let own := least + n - 1
        let (count, breaks) := emptyLines own c.column c.rest
        (own, (⟨[], [], breaks, c.skip count⟩ : Lines))
    | none =>
        let (count, breaks, widest) := leadingLines c.column c.rest
        (max least widest, ⟨[], [], breaks, c.skip count⟩)
  let lines := linesFrom isFolded own (c.rest.length + 1) start
  let tail :=
    match header.chomping with
    | .strip => []
    | .clip => lines.ended
    | .keep => lines.ended ++ lines.breaks
  pure (lines.text ++ tail, lines.cursor)

end StringAudit.Yaml.Block
