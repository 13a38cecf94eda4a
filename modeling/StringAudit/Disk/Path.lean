/-!
# Paths

A path is a sequence of names under an anchor: nothing for a relative path, one slash for an absolute
one, and exactly two slashes where the text starts so.  Empty names and the name `.` say nothing and are
left out; the name `..` stays, because a symbolic link may stand in front of it.  `Path.text` is the
form in which messages show a path, `collapse` removes each `..` together with the name in front of it
without looking at the disk.
-/

namespace StringAudit

/-- A path by its anchor and its names. -/
structure Path where
  anchor : String
  names : List String
  deriving DecidableEq, Repr

namespace Path

/-- The pieces of a text between its slashes. -/
def pieces (text : String) : List String :=
  (text.toList.splitOn '/').map String.ofList

/-- The anchor of a path text. -/
def anchorOf (text : String) : String :=
  match (text.toList.takeWhile (· = '/')).length with
  | 0 => ""
  | 2 => "//"
  | _ => "/"

/-- Whether a piece of a path text names something. -/
def isName (piece : String) : Bool :=
  piece ≠ "" && piece ≠ "."

/-- The path of a text. -/
def parse (text : String) : Path :=
  ⟨anchorOf text, (pieces text).filter isName⟩

/-- The text of a path. -/
def text (p : Path) : String :=
  if p.anchor = "" ∧ p.names = [] then "." else p.anchor ++ "/".intercalate p.names

/-- The text of the path that a text stands for. -/
def tidy (text : String) : String :=
  (parse text).text

/-- The last name of a path; nothing for an anchor alone and for the empty path. -/
def name (p : Path) : String :=
  p.names.getLastD ""

/-- The path without its last name. -/
def parent (p : Path) : Path :=
  { p with names := p.names.dropLast }

/-- Add a name to collapsed names, which are given last one first. -/
def collapseName (anchored : Bool) (above : List String) (piece : String) : List String :=
  if piece ≠ ".." then piece :: above
  else match above with
    | [] => if anchored then [] else [".."]
    | ".." :: _ => ".." :: above
    | _ :: rest => rest

/-- The path with each `..` removed together with the name in front of it. -/
def collapse (p : Path) : Path :=
  { p with names := (p.names.foldl (collapseName (p.anchor ≠ "")) []).reverse }

/-- A text continued by a name. -/
def join (base rest : String) : String :=
  if rest.startsWith "/" then rest
  else if base = "" ∨ base.endsWith "/" then base ++ rest
  else base ++ "/" ++ rest

/-- The extension of a file name with its full stop: what stands from the last full stop on.  Full stops
at the start of the name begin no extension. -/
def extension (fileName : List Char) : List Char :=
  let stem := fileName.reverse.dropWhile (· ≠ '.')
  if stem.drop 1 |>.any (· ≠ '.') then '.' :: (fileName.reverse.takeWhile (· ≠ '.')).reverse
  else []

end Path

end StringAudit
