import StringAudit.Charset.Utf8
import StringAudit.Yaml.Token
import StringAudit.Yaml.Token.Block
import StringAudit.Yaml.Token.Quoted

/-!
# Names, tags and directives

Anchors and aliases are named by letters, digits, dashes and underscores of ASCII.  A tag is written in
full between angle brackets, or as a handle between exclamation marks and a rest; bytes outside its
alphabet are written by percent signs.  A line that starts with a percent sign is a directive.
-/

namespace StringAudit.Yaml.TagName

/-- A character of a name. -/
def isNameChar (c : Char) : Bool :=
  c.isAlphanum || c = '-' || c = '_'

/-- A character of a tag. -/
def isTagChar (c : Char) : Bool :=
  c.isAlphanum || "-;/?:@&=+$,_.!~*'()[]%".toList.contains c

/-- The text of bytes that were written by percent signs. -/
def unescaped (bytes : List UInt8) : Except Fault (List Char) :=
  match Charset.Utf8.decode bytes with
  | .ok text => .ok text
  | .error _ => .error .malformed

/-- The tag that starts here and how many characters it takes; `bytes` have just been read by percent
signs. -/
def tagFrom (bytes : List UInt8) : List Char → Except Fault (List Char × Nat)
  | '%' :: a :: b :: rest => do
      match Quoted.hexDigit? a, Quoted.hexDigit? b with
      | some high, some low =>
          let (text, n) ← tagFrom (bytes ++ [(high * 16 + low).toUInt8]) rest
          pure (text, n + 3)
      | _, _ => throw .malformed
  | '%' :: _ => .error .malformed
  | c :: rest => do
      let before ← unescaped bytes
      if isTagChar c then
        let (text, n) ← tagFrom [] rest
        pure (before ++ c :: text, n + 1)
      else pure (before, 0)
  | [] => do pure (← unescaped bytes, 0)

/-- The tag at a position, which must not be empty, and the position behind it. -/
def tag (c : Cursor) : Except Fault (String × Cursor) := do
  let (text, n) ← tagFrom [] c.rest
  if text = [] then throw .malformed
  pure (String.ofList text, c.skip n)

/-- The handle at a position and the position behind it: one exclamation mark in front of a space, or
two around a name. -/
def handle (c : Cursor) : Except Fault (String × Cursor) :=
  match c.rest with
  | '!' :: ' ' :: _ => .ok ("!", c.next)
  | '!' :: rest =>
      let name := rest.takeWhile isNameChar
      match rest.drop name.length with
      | '!' :: _ => .ok (String.ofList ('!' :: name ++ ['!']), c.skip (name.length + 2))
      | _ => .error .malformed
  | _ => .error .malformed

/-- Whether a second exclamation mark stands in front of the next space or line break. -/
def hasHandle : List Char → Bool
  | [] => false
  | c :: rest => if c = ' ' ∨ isBreak c then false else if c = '!' then true else hasHandle rest

/-- The tag token at a position and the position behind it. -/
def scan (c : Cursor) : Except Fault (Token × Cursor) := do
  let (token, c) ←
    match c.next.rest with
    | '<' :: _ => do
        let (rest, c) ← tag (c.skip 2)
        if c.peek = some '>' then pure (Token.tag none rest, c.next) else throw .malformed
    | behind =>
        if atGap behind then pure (Token.tag none "!", c.next)
        else do
          let (name, c) ← if hasHandle behind then handle c else pure ("!", c.next)
          let (rest, c) ← tag c
          pure (Token.tag (some name) rest, c)
  if atSpace c.rest then pure (token, c) else throw .malformed

/-- The name of an anchor or alias behind its sign, and the position behind it. -/
def anchor (c : Cursor) : Except Fault (String × Cursor) :=
  let (name, c) := c.next.span isNameChar
  let ends := atGap c.rest ||
    c.peek.any fun d => ['?', ':', ',', ']', '\x7d', '%', '@', '\x60'].contains d
  if name ≠ [] ∧ ends then .ok (String.ofList name, c) else .error .malformed

/-- The number at a position and the position behind it. -/
def number (c : Cursor) : Except Fault (Nat × Cursor) :=
  let (digits, c) := c.span Char.isDigit
  if digits = [] then .error .malformed
  else .ok (digits.foldl (fun n d => n * 10 + (d.toNat - '0'.toNat)) 0, c)

/-- The version at a position and the position behind it. -/
def version (c : Cursor) : Except Fault (Directive × Cursor) := do
  let (major, c) ← number (c.skipWhile (· = ' '))
  if c.peek ≠ some '.' then throw .malformed
  let (minor, c) ← number c.next
  if atSpace c.rest then pure (.version major minor, c) else throw .malformed

/-- The abbreviation at a position and the position behind it. -/
def abbreviation (c : Cursor) : Except Fault (Directive × Cursor) := do
  let (name, c) ← handle (c.skipWhile (· = ' '))
  if c.peek ≠ some ' ' then throw .malformed
  let (beginning, c) ← tag (c.skipWhile (· = ' '))
  if atSpace c.rest then pure (.handle name beginning, c) else throw .malformed

/-- The directive at a position and the position behind its line. -/
def directive (c : Cursor) : Except Fault (Token × Cursor) := do
  let (name, c) := c.next.span isNameChar
  if name = [] ∨ atSpace c.rest = false then throw .malformed
  let (d, c) ←
    match String.ofList name with
    | "YAML" => version c
    | "TAG" => abbreviation c
    | _ => pure (.reserved, c.skipWhile (!isBreak ·))
  let c ← Block.finishLine c
  pure (.directive d, c)

end StringAudit.Yaml.TagName
