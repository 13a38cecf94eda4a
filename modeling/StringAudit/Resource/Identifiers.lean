import StringAudit.Failure
import StringAudit.Resource.Line

/-!
# The identifiers of a resource file

The identifiers of a text are those of its identifier lines, in the order of the lines and with
repetitions.  The first unclosed identifier line makes the whole text unusable.
-/

namespace StringAudit.Resource

/-- An unclosed identifier line: the line without the blanks at its ends, and its number, counted from
one. -/
structure Unclosed where
  line : String
  number : Nat
  deriving DecidableEq, Repr

/-- The failure of a file with an unclosed identifier line. -/
def Unclosed.failure (u : Unclosed) (path : Option String) : Failure :=
  .unclosed u.line path (some u.number)

/-- The identifiers of lines of which the first has the given number. -/
def identifiersFrom : Nat → List (List Char) → Except Unclosed (List String)
  | _, [] => .ok []
  | number, line :: rest =>
      match readLine line with
      | .other => identifiersFrom (number + 1) rest
      | .identifier name => (name :: ·) <$> identifiersFrom (number + 1) rest
      | .unclosed trimmed => .error ⟨String.ofList trimmed, number⟩

/-- The identifiers of a text. -/
def identifiers (text : String) : Except Unclosed (List String) :=
  identifiersFrom 1 (Text.lines text.toList)

end StringAudit.Resource
