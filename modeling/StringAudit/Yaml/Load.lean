import StringAudit.Charset.Utf8
import StringAudit.Yaml.Loader
import StringAudit.Yaml.Node.OfTokens
import StringAudit.Yaml.Token.Lexer
import StringAudit.Yaml.Value.OfNode

/-!
# Loading YAML

The value of the document in a text; a text without a document has the empty value.  Line breaks of
other systems count as newlines.  A text that holds a character outside the alphabet of the language is
malformed.

The program runs with this loader.  It decodes a file as a whole before it looks at it, and does not say what
exactly is wrong with a malformed one.
-/

namespace StringAudit.Yaml

/-- The text with every line break a newline. -/
def withNewlines : List Char → List Char
  | '\r' :: '\n' :: rest => '\n' :: withNewlines rest
  | '\r' :: rest => '\n' :: withNewlines rest
  | c :: rest => c :: withNewlines rest
  | [] => []

/-- Whether a character belongs to the alphabet of the language. -/
def isAllowed (c : Char) : Bool :=
  let n := c.toNat
  c = '\t' || c = '\n' || c = '\r' || c = '\x85' || (0x20 ≤ n && n ≤ 0x7E) ||
    (0xA0 ≤ n && n ≤ 0xD7FF) || (0xE000 ≤ n && n ≤ 0xFFFD) || 0x10000 ≤ n

/-- The value of the document in a text. -/
def load (text : List Char) : Except Fault Value := do
  let text := withNewlines text
  if text.all isAllowed then
    match ← Node.ofTokens (tokens text) with
    | some root => root.value
    | none => pure .null
  else throw .malformed

/-- What stands for the details of a malformed text. -/
def malformedNote : String :=
  "<yaml>"

/-- A fault of a text as one of its bytes. -/
def Fault.ofBytes : Fault → LoadFault
  | malformed => .malformed malformedNote
  | scalar fault => .scalar fault

/-- The value of the document in the bytes of a file. -/
def loadBytes (bytes : List UInt8) : Except LoadFault Value := do
  let text ← (Charset.Utf8.decode bytes).mapError .undecodable
  (load text).mapError Fault.ofBytes

/-- The loader that the program runs with. -/
instance : Loader :=
  ⟨loadBytes⟩

end StringAudit.Yaml
