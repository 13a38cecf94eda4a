import StringAudit.Disk.Directory
import StringAudit.Disk.Fault
import StringAudit.Disk.Path

/-!
# The disk

A disk is a root directory, the place in it where relative paths start, and the paths at which it
refuses to list a directory, to read a file or to put a file in place.

A path is followed piece by piece: a symbolic link sends the way on to its target, `..` goes up to the
directory that holds the current one, and whatever is followed by another piece must be a directory.
`resolve` gives the place that a path leads to, as the chain of names from the root on which no link is
left.  A path may pass through forty links.
-/

namespace StringAudit

/-- The chain of names that leads from the root to an entry. -/
abbrev Place := List String

/-- The paths at which a disk refuses an operation. -/
structure Refusals where
  /-- Directories that are not listed. -/
  listing : List String := []
  /-- Files that are not read. -/
  reading : List String := []
  /-- Files that no other file is moved onto. -/
  replacing : List String := []
  deriving DecidableEq, Repr

/-- A disk. -/
structure Disk where
  root : Directory
  /-- The place where relative paths start. -/
  here : Place
  refusals : Refusals := {}
  deriving DecidableEq, Repr

namespace Disk

/-- Whether a path is among others, up to what collapsing removes. -/
def isAmong (paths : List String) (path : String) : Bool :=
  paths.any fun other => (Path.parse other).collapse = (Path.parse path).collapse

/-- The longest name of an entry, in bytes. -/
def maxNameBytes : Nat :=
  255

/-- The longest path, in bytes. -/
def maxPathBytes : Nat :=
  4095

/-- The most links that a path may pass through. -/
def maxLinks : Nat :=
  40

/-- The pieces by which a path is followed.  A slash at the end asks for a directory, as the piece `.`
does. -/
def steps (path : String) : List String :=
  let pieces := Path.pieces path
  let asked := if pieces.getLast? = some "" then pieces.dropLast ++ ["."] else pieces
  asked.filter (· ≠ "")

/-- The place where the pieces of a path start. -/
def start (here : Place) (path : String) : Place :=
  if path.startsWith "/" then [] else here

/-- Follow pieces from a place.  A link is handed to `onLink` with the place of the directory that holds
it and the pieces behind it; the last piece may be a link only if `last` says so. -/
def walk (root : Directory) (onLink : Place → String → List String → Except Cause Place) (last : Bool) :
    Place → List String → Except Cause Place
  | place, [] => .ok place
  | place, piece :: rest =>
      match root.at? place with
      | some (.folder d) =>
          if piece = "." then walk root onLink last place rest
          else if piece = ".." then walk root onLink last place.dropLast rest
          else if maxNameBytes < piece.utf8ByteSize then .error .nameTooLong
          else match d.find? piece with
            | none => .error .missing
            | some (.link target) =>
                if rest = [] ∧ last then .ok (place ++ [piece]) else onLink place target rest
            | some _ => walk root onLink last (place ++ [piece]) rest
      | _ => .error .notDirectory

/-- Follow pieces from a place through at most the given number of links. -/
def follow (root : Directory) (last : Bool) : Nat → Place → List String → Except Cause Place
  | 0, place, pieces => walk root (fun _ _ _ => .error .tooManyLinks) last place pieces
  | n + 1, place, pieces =>
      walk root
        (fun holder target rest => follow root last n (start holder target) (steps target ++ rest))
        last place pieces

/-- The place that a path leads to; with `last`, a link that the path ends in is not followed. -/
def resolve (disk : Disk) (path : String) (last : Bool := false) : Except Cause Place :=
  if path = "" then .error .missing
  else if maxPathBytes < path.utf8ByteSize then .error .nameTooLong
  else follow disk.root last maxLinks (start disk.here path) (steps path)

/-- The entry that a path leads to, with its place. -/
def entry (disk : Disk) (path : String) : Except Cause (Place × Entry) := do
  let place ← disk.resolve path
  match disk.root.at? place with
  | some entry => pure (place, entry)
  | none => throw .missing

/-- Whether a path can name anything at all: the character U+0000 ends no name and is in none. -/
def isUsable (path : String) : Bool :=
  !path.toList.contains '\x00'

/-- Whether a path leads to a directory. -/
def isDirectory (disk : Disk) (path : String) : Bool :=
  isUsable path &&
    match disk.entry path with
    | .ok (_, .folder _) => true
    | _ => false

/-- Why the directory that a path leads to cannot be listed; nothing if it can.  A path that has grown too
long below a root leads nowhere any more. -/
def listingCause? (disk : Disk) (path : String) : Option Cause :=
  if isAmong disk.refusals.listing path then some .denied
  else if maxPathBytes < path.utf8ByteSize then some .nameTooLong
  else none

/-- Whether a path leads to anything. -/
def leadsSomewhere (disk : Disk) (path : String) : Bool :=
  isUsable path && (disk.entry path).isOk

/-- The bytes of the file that a path leads to. -/
def readBytes (disk : Disk) (path : String) : Except Fault (List UInt8) :=
  match disk.entry path with
  | .ok (_, .file contents) => .ok contents.bytes
  | .ok _ => .error ⟨.isDirectory, path, none⟩
  | .error cause => .error ⟨cause, path, none⟩

/-- The directory in which a path names an entry, and the name; nothing if the path ends in the anchor,
in `.` or in `..`. -/
def holder (disk : Disk) (path : Path) : Except Cause (Place × Option String) := do
  let place ← disk.resolve path.parent.text
  match disk.root.at? place with
  | some (.folder _) =>
      pure (place, if path.names = [] ∨ path.name = ".." then none else some path.name)
  | _ => throw .notDirectory

/-- Put an entry under a name in the directory at a place. -/
def put (disk : Disk) (place : Place) (name : String) (entry : Entry) : Disk :=
  { disk with root := disk.root.modify place (·.insert name entry) }

/-- Remove the entry under a name from the directory at a place. -/
def remove (disk : Disk) (place : Place) (name : String) : Disk :=
  { disk with root := disk.root.modify place (·.erase name) }

/-- What stands under a name in the directory at a place. -/
def named (disk : Disk) (place : Place) (name : String) : Option Entry :=
  disk.root.at? (place ++ [name])

/-- The absolute path of a path, found without looking at the disk. -/
def absolute (disk : Disk) (path : Path) : Path :=
  if path.anchor = "" then Path.collapse ⟨"/", disk.here ++ path.names⟩ else path.collapse

end Disk

end StringAudit
