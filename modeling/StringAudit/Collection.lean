import StringAudit.Disk.Basic
import StringAudit.Failure
import StringAudit.Text.Lowercase

/-!
# Collecting files

A search looks below roots for the files with certain extensions.  In each directory it lists the
matching files by name and then goes through the subdirectories by name.  It does not enter a directory
with an ignored name, nor a directory that is reached by a link; a link to anything else counts as a
file.  Roots are taken as they are: their own names are never ignored, and a root may be a link.

The path of a file is the root as given, followed by the names that lead to the file.  A root that is no
directory, and a directory that cannot be listed, fail the whole search; the first one in the order of
the search is reported.
-/

namespace StringAudit.Collection

/-- The form in which extensions are compared: small letters and no full stops in front. -/
def plainExtension (extension : List Char) : List Char :=
  (Text.lowercase extension).dropWhile (· = '.')

/-- What a search looks for. -/
structure Search where
  /-- The extensions in their plain form. -/
  extensions : List (List Char)
  /-- The names of directories that are not entered. -/
  ignored : List String
  deriving DecidableEq, Repr

/-- The search for extensions, in any case and with or without a full stop. -/
def Search.of (extensions ignored : List String) : Search :=
  ⟨extensions.map fun extension => plainExtension extension.toList, ignored⟩

/-- Whether a search looks for files of a name. -/
def Search.matches (search : Search) (name : String) : Bool :=
  let extension := Path.extension name.toList
  extension ≠ [] && search.extensions.contains (plainExtension extension)

/-- A directory of the search: its path, and what was found in it. -/
structure Found where
  /-- The matching files of the directory itself. -/
  files : List String
  /-- The matching files below its subdirectories. -/
  below : Except Failure (List String)

/-- The files of a directory followed by those below its subdirectories; fails if the directory cannot be
listed. -/
def listed (disk : Disk) (path : String) (found : Found) : Except Failure (List String) :=
  match disk.listingCause? path with
  | some cause => .error (.unlistable path cause.words)
  | none => found.below.map (found.files ++ ·)

/-- Search the entries of the directory at a path.  The path of a file is put together on the way down.  To
join the root with the path of the file relative to the root, which `Disk.relative` is, gives the same. -/
def gather (disk : Disk) (search : Search) (path : String) : Directory → Found
  | .empty => ⟨[], .ok []⟩
  | .file name _ rest =>
      let found := gather disk search path rest
      if search.matches name then { found with files := Path.join path name :: found.files } else found
  | .link name _ rest =>
      let found := gather disk search path rest
      if search.matches name && !disk.isDirectory (Path.join path name) then
        { found with files := Path.join path name :: found.files }
      else found
  | .folder name inner rest =>
      let found := gather disk search path rest
      if search.ignored.contains name then found
      else
        let entered := listed disk (Path.join path name) (gather disk search (Path.join path name) inner)
        { found with below := do pure ((← entered) ++ (← found.below)) }

/-- Search below a root. -/
def collectRoot (disk : Disk) (search : Search) (root : String) : Except Failure (List String) :=
  match if Disk.isUsable root then disk.entry root else .error .missing with
  | .ok (_, .folder inner) => listed disk root (gather disk search root inner)
  | .ok _ => .error (.unlistable root "not a directory")
  | .error _ => .error (.unlistable root "no such directory")

/-- Search below all roots, in order. -/
def collect (disk : Disk) (search : Search) : List String → Except Failure (List String)
  | [] => .ok []
  | root :: rest => do
      let files ← collectRoot disk search root
      let others ← collect disk search rest
      pure (files ++ others)

end StringAudit.Collection
