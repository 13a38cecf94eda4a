import StringAudit.Resource.Line

/-!
# Removing identifiers from a resource file

Removal only takes lines away: a line goes exactly when it has an identifier that is to be removed.  All
other lines, unclosed identifier lines among them, stay as they are and in their order.
-/

namespace StringAudit.Resource

/-- Whether a line stays when the given identifiers are removed. -/
def keeps (unwanted : List String) (line : List Char) : Bool :=
  match readLine line with
  | .identifier name => !unwanted.contains name
  | _ => true

/-- The text without the lines of the given identifiers. -/
def removing (unwanted : List String) (text : String) : String :=
  String.ofList (Text.unlines ((Text.lines text.toList).filter (keeps unwanted)))

end StringAudit.Resource
