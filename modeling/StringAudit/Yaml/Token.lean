import StringAudit.Text.Wide
import StringAudit.Yaml.Fault

/-!
# YAML tokens

The tokens of a document.  Indentation has been turned into tokens that open and close block collections.
A sequence of tokens may end in a fault: then the text is faulty from there on.
-/

namespace StringAudit.Yaml

/-- An instruction in front of a document. -/
inductive Directive
  /-- The version of the language. -/
  | version (major minor : Nat)
  /-- A handle that abbreviates the beginning of tags. -/
  | handle (name beginning : String)
  /-- Anything else. -/
  | reserved
  deriving DecidableEq, Repr

/-- A token. -/
inductive Token
  | directive (d : Directive)
  | documentStart
  | documentEnd
  | blockSequenceStart
  | blockMappingStart
  | blockEnd
  | flowSequenceStart
  | flowSequenceEnd
  | flowMappingStart
  | flowMappingEnd
  | blockEntry
  | flowEntry
  | key
  | value
  | alias (name : String)
  | anchor (name : String)
  /-- A tag; without a handle the rest is the whole tag. -/
  | tag (handle : Option String) (rest : String)
  | scalar (text : WideText) (plain : Bool)
  /-- The end of the text. -/
  | endOfText
  /-- The text is faulty. -/
  | broken (fault : Fault)
  deriving DecidableEq, Repr

end StringAudit.Yaml
