import StringAudit.Text.Wide
import StringAudit.Yaml.Fault
import StringAudit.Yaml.Token.Plain

/-!
# Quoted scalars

Between single quotes every character stands for itself, and a single quote is written twice.  Between
double quotes a backslash begins an escape, and may also hide the end of a line.  Line breaks count as in
plain scalars; a document mark at the start of a line is a fault.
-/

namespace StringAudit.Yaml.Quoted

/-- The kinds of quotes. -/
inductive Style
  | single
  | double
  deriving DecidableEq, Repr

/-- The quote of a kind. -/
def Style.mark : Style → Char
  | single => '\x27'
  | double => '"'

/-- The characters with an escape of one letter. -/
def letterEscapes : List (Char × Char) :=
  [('0', '\x00'), ('a', '\x07'), ('b', '\x08'), ('t', '\t'), ('\t', '\t'), ('n', '\n'), ('v', '\x0b'),
    ('f', '\x0c'), ('r', '\r'), ('e', '\x1b'), (' ', ' '), ('"', '"'), ('\\', '\\'), ('/', '/'),
    ('N', '\x85'), ('_', '\xa0'), ('L', '\u2028'), ('P', '\u2029')]

/-- The letters of the escapes by code point, with the number of their digits. -/
def codeEscapes : List (Char × Nat) :=
  [('x', 2), ('u', 4), ('U', 8)]

/-- The value of a hexadecimal digit. -/
def hexDigit? (c : Char) : Option Nat :=
  if '0' ≤ c ∧ c ≤ '9' then some (c.toNat - '0'.toNat)
  else if 'a' ≤ c ∧ c ≤ 'f' then some (c.toNat - 'a'.toNat + 10)
  else if 'A' ≤ c ∧ c ≤ 'F' then some (c.toNat - 'A'.toNat + 10)
  else none

/-- The number written by exactly the given number of hexadecimal digits. -/
def hexNumber? (count : Nat) (s : List Char) : Option Nat :=
  let digits := (s.take count).map hexDigit?
  if s.length < count ∨ digits.contains none then none
  else some (digits.foldl (fun n d => n * 16 + d.getD 0) 0)

/-- The code point of a number. -/
def codePoint (n : Nat) : Except Fault CodePoint :=
  if 0x80000000 ≤ n then .error (.scalar .tooLarge)
  else if 0x110000 ≤ n then .error (.scalar .outOfRange)
  else if 0xD800 ≤ n ∧ n < 0xE000 then .ok (.surrogate (Fin.ofNat 0x800 (n - 0xD800)))
  else .ok (.char (Char.ofNat n))

/-- The line breaks and blanks that start here, the breaks as they stand in a value. -/
def breaksFrom : List Char → Nat × List Char × Bool
  | [] => (0, [], false)
  | c :: rest =>
      if isGap c then
        let (n, breaks, marked) := breaksFrom rest
        (n + 1, breaks, marked)
      else if isBreak c then
        if atDocumentMark rest then (1, [breakValue c], true)
        else
          let (n, breaks, marked) := breaksFrom rest
          (n + 1, breakValue c :: breaks, marked)
      else (0, [], false)

/-- The line breaks behind the first one; a document mark is a fault. -/
def moreBreaks (c : Cursor) : Except Fault (List Char × Cursor) :=
  if atDocumentMark c.rest then .error .malformed
  else
    let (n, breaks, marked) := breaksFrom c.rest
    if marked then .error .malformed else .ok (breaks, c.skip n)

/-- An escape behind its backslash. -/
def escape (c : Cursor) : Except Fault (List CodePoint × Cursor) :=
  match c.peek with
  | none => .error .malformed
  | some letter =>
      match letterEscapes.lookup letter, codeEscapes.lookup letter with
      | some value, _ => .ok ([.char value], c.next)
      | none, some count =>
          match hexNumber? count c.next.rest with
          | some n => do pure ([← codePoint n], c.next.skip count)
          | none => .error .malformed
      | none, none =>
          if isBreak letter then do
            let (breaks, c) ← moreBreaks c.next
            pure (breaks.map .char, c)
          else .error .malformed

/-- A piece without blanks and line breaks.  The fuel bounds the number of its parts. -/
def dense (style : Style) : Nat → Cursor → Except Fault (List CodePoint × Cursor)
  | 0, _ => .error .malformed
  | n + 1, c => do
      let (characters, c) := c.span fun ch =>
        !(isGap ch || isBreak ch || ch = '\x27' || ch = '"' || ch = '\\')
      let run := characters.map .char
      match style, c.rest with
      | .single, '\x27' :: '\x27' :: _ =>
          let (more, c) ← dense style n (c.skip 2)
          pure (run ++ .char '\x27' :: more, c)
      | .double, '\\' :: _ =>
          let (escaped, c) ← escape c.next
          let (more, c) ← dense style n c
          pure (run ++ escaped ++ more, c)
      | _, ch :: _ =>
          if ch = style.mark ∨ isGap ch ∨ isBreak ch then pure (run, c)
          else
            let (more, c) ← dense style n c.next
            pure (run ++ .char ch :: more, c)
      | _, [] => pure (run, c)

/-- Blanks and line breaks. -/
def sparse (c : Cursor) : Except Fault (List Char × Cursor) :=
  let (blanks, c) := c.span isGap
  match c.lineBreak?, c.rest with
  | some (first, c), _ => do
      let (breaks, c) ← moreBreaks c
      pure (Plain.folded first breaks, c)
  | none, [] => .error .malformed
  | none, _ => .ok (blanks, c)

/-- The rest of a scalar behind a dense piece.  The fuel bounds the number of pieces. -/
def scanFrom (style : Style) : Nat → Cursor → Except Fault (List CodePoint × Cursor)
  | 0, _ => .error .malformed
  | n + 1, c => do
      let (piece, c) ← dense style (c.rest.length + 1) c
      if c.peek = some style.mark then pure (piece, c.next)
      else
        let (gap, c) ← sparse c
        let (more, c) ← scanFrom style n c
        pure (piece ++ gap.map .char ++ more, c)

/-- The quoted scalar at a position, and the position behind it. -/
def scan (style : Style) (c : Cursor) : Except Fault (WideText × Cursor) := do
  let (points, c) ← scanFrom style (c.rest.length + 1) c.next
  pure (.ofPoints points, c)

end StringAudit.Yaml.Quoted
