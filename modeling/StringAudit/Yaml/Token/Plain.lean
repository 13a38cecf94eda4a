import StringAudit.Yaml.Token.Cursor

/-!
# Plain scalars

A plain scalar has no quotes.  It is a sequence of words; a word ends at a blank, at a colon in front of
a blank, and inside brackets also at their punctuation.  It may go on over several lines as long as they
are indented: a single line break counts as a space, of several the first is dropped.  A word that starts
with the comment sign ends the scalar, and so does a document mark.
-/

namespace StringAudit.Yaml.Plain

/-- Whether a word ends here. -/
def endsWord (flow : Bool) : List Char → Bool
  | [] => true
  | c :: rest =>
      isGap c || isBreak c ||
        (c = ':' && (atGap rest || (flow && rest.head?.any fun d => [',', '[', ']', '{', '}'].contains d))) ||
        (flow && [',', '?', '[', ']', '{', '}'].contains c)

/-- The word that starts here. -/
def word (flow : Bool) : List Char → List Char
  | [] => []
  | c :: rest => if endsWord flow (c :: rest) then [] else c :: word flow rest

/-- The spaces and line breaks that start here: how many characters they are, the line breaks, and
whether a document mark follows one of them. -/
def emptyLines : List Char → Nat × List Char × Bool
  | [] => (0, [], false)
  | c :: rest =>
      if c = ' ' then
        let (n, breaks, marked) := emptyLines rest
        (n + 1, breaks, marked)
      else if isBreak c then
        if atDocumentMark rest then (1, [breakValue c], true)
        else
          let (n, breaks, marked) := emptyLines rest
          (n + 1, breakValue c :: breaks, marked)
      else (0, [], false)

/-- Line breaks as they count in a value: the first is a space if it is the only one, and is dropped if
it is not; one of the Unicode separators stays. -/
def folded (first : Char) (more : List Char) : List Char :=
  (if first ≠ '\n' then [first] else if more = [] then [' '] else []) ++ more

/-- What stands between two words. -/
structure Between where
  /-- What it counts as in the value; nothing if there is no further word. -/
  value : List Char
  /-- The position behind it. -/
  cursor : Cursor
  /-- Whether it goes over the end of a line. -/
  broken : Bool

/-- What stands behind a word. -/
def between (c : Cursor) : Between :=
  let (spaces, c) := c.span (· = ' ')
  match c.lineBreak? with
  | some (first, c) =>
      if atDocumentMark c.rest then ⟨[], c, true⟩
      else
        let (n, breaks, marked) := emptyLines c.rest
        ⟨if marked then [] else folded first breaks, c.skip n, true⟩
  | none => ⟨spaces, c, false⟩

/-- A scalar, the position behind it, and whether a line ended just before that position. -/
structure Scanned where
  text : List Char
  cursor : Cursor
  broken : Bool

/-- The words from a position on.  The fuel bounds the number of words. -/
def scanFrom (flow : Bool) (indent : Int) : Nat → (gap : List Char) → Scanned → Scanned
  | 0, _, before => before
  | n + 1, gap, before =>
      if before.cursor.peek = some '#' then before
      else
        let w := word flow before.cursor.rest
        if w = [] then before
        else
          let after := between (before.cursor.skip w.length)
          let scanned := ⟨before.text ++ gap ++ w, after.cursor, after.broken⟩
          if after.value = [] ∨ (flow = false ∧ (after.cursor.column : Int) < indent) then scanned
          else scanFrom flow indent n after.value scanned

/-- The plain scalar at a position, inside lines of at least the given indentation. -/
def scan (flow : Bool) (indent : Int) (c : Cursor) : Scanned :=
  scanFrom flow indent (c.rest.length + 1) [] ⟨[], c, false⟩

end StringAudit.Yaml.Plain
