import StringAudit.Text.Blank
import StringAudit.Text.Lines

/-!
# Lines of a resource file

A resource file pairs identifiers with texts, one pair to a line:

    "greeting.title" = "Hello";

A line whose first character that is not blank is a double quote is an identifier line.  Its identifier
is what stands between the first two double quotes; a backslash does not protect a quote, and what
follows the second quote does not matter.  An identifier line without a second quote is unclosed.
-/

namespace StringAudit.Resource

/-- What a line of a resource file says. -/
inductive Reading
  /-- No identifier: a comment, an empty line, anything that does not start with a quote. -/
  | other
  /-- An identifier. -/
  | identifier (name : String)
  /-- A quote that is not closed, in the line without the blanks at its ends. -/
  | unclosed (trimmed : List Char)
  deriving DecidableEq, Repr

/-- What stands between the first character of a line, whatever it is, and the next double quote. -/
def upToQuote? (line : List Char) : Option (List Char) :=
  let rest := line.drop 1
  if rest.contains '"' then some (rest.takeWhile (· ≠ '"')) else none

/-- Whether a line is an identifier line. -/
def isIdentifierLine (line : List Char) : Bool :=
  (Text.trim line).head? = some '"'

/-- What a line says. -/
def readLine (line : List Char) : Reading :=
  if isIdentifierLine line then
    match upToQuote? (Text.trim line) with
    | some name => .identifier (String.ofList name)
    | none => .unclosed (Text.trim line)
  else .other

end StringAudit.Resource
