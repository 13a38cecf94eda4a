/-!
# References to identifiers

Source code refers to an identifier by one of three quoted forms: in double quotes, in double quotes
behind an at sign, or in apostrophes.  An identifier is abandoned in a corpus that contains none of the
three.  The corpus is not parsed, so a chance match keeps an identifier alive and none is condemned by
mistake.
-/

namespace StringAudit.Reference

/-- The forms in which source code refers to an identifier. -/
def forms (identifier : String) : List String :=
  ["\"" ++ identifier ++ "\"", "\"@" ++ identifier ++ "\"", "'" ++ identifier ++ "'"]

/-- Whether a text contains another one. -/
def contains (corpus piece : List Char) : Bool :=
  piece.isPrefixOf corpus ||
    match corpus with
    | [] => false
    | _ :: rest => contains rest piece

/-- Whether a corpus refers to an identifier nowhere. -/
def isAbandoned (corpus identifier : String) : Bool :=
  !(forms identifier).any fun form => contains corpus.toList form.toList

/-- The abandoned ones among identifiers, in order of first occurrence and each once; those in `found`
have been listed already. -/
def abandonedBeyond (corpus : String) (found : List String) : List String → List String
  | [] => []
  | identifier :: rest =>
      if found.contains identifier || !isAbandoned corpus identifier then abandonedBeyond corpus found rest
      else identifier :: abandonedBeyond corpus (identifier :: found) rest

/-- The abandoned ones among identifiers, in order of first occurrence and each once. -/
def abandoned (corpus : String) (identifiers : List String) : List String :=
  abandonedBeyond corpus [] identifiers

end StringAudit.Reference
