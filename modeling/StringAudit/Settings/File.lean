import StringAudit.Disk.Basic
import StringAudit.Settings.OfValue
import StringAudit.Yaml.Loader

/-!
# The settings file

The settings stand in a YAML file in UTF-8.  If no file is named, the file `abandoned_strings.yml` counts,
if there is one; a file that is named must be there.
-/

namespace StringAudit.Settings

variable [Codecs] [Yaml.Loader]

/-- The name of the file that counts when no file is named. -/
def usualName : String :=
  "abandoned_strings.yml"

/-- The settings in the bytes of the file at a path.  A file that is not UTF-8, and a scalar that is not of its
type, are not handled. -/
def ofBytes (path : String) (bytes : List UInt8) : Except Failure Settings :=
  match Yaml.Loader.load bytes with
  | .ok value => ofValue value
  | .error (.malformed reason) => .error (Refusal.unloadable path reason).failure
  | .error (.undecodable fault) => .error (.breakdown (.undecodable fault))
  | .error (.scalar fault) => .error (.breakdown (.badScalar fault))

/-- The settings in the file at a path. -/
def ofFile (path : String) (disk : Disk) : Except Failure Settings :=
  match disk.readBytes path with
  | .error fault => .error (Refusal.unloadable path fault.message).failure
  | .ok bytes => ofBytes path bytes

/-- Whether there is anything at a path. -/
def isThere (path : String) (disk : Disk) : Except Failure Bool :=
  if !Disk.isUsable path then .ok false
  else match disk.entry path with
    | .ok _ => .ok true
    | .error .nameTooLong => .error (.breakdown (.unreachable ⟨.nameTooLong, path, none⟩))
    | .error _ => .ok false

/-- The path of the usual file in a directory. -/
def usualPath (directory : Option String) : String :=
  let parent := Path.parse (directory.getD "")
  Path.text { parent with names := parent.names ++ [usualName] }

/-- Load the settings from the file at a path, or from the usual file in a directory. -/
def load (path : Option String) (directory : Option String) (disk : Disk) : Except Failure Settings := do
  match path with
  | some path =>
      let path := Path.tidy path
      if ← isThere path disk then ofFile path disk else throw (Refusal.notFound path).failure
  | none =>
      let path := usualPath directory
      if ← isThere path disk then ofFile path disk else pure {}

end StringAudit.Settings
