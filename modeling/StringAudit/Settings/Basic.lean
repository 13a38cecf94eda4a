import StringAudit.Failure

/-!
# Settings

What the settings file of an audit can set, and why a settings file is refused.
-/

namespace StringAudit

/-- The character set that is used unless the settings name another. -/
def Settings.usualCharset : String :=
  "utf-8"

/-- The settings of an audit. -/
structure Settings where
  /-- How many resource files are scanned at once. -/
  workers : Option Int := none
  /-- The name of the character set of the output and of cleaned files. -/
  charset : String := Settings.usualCharset
  /-- The texts that are listed as names of directories that are not entered. -/
  ignoreList : List WideText := []
  /-- The texts that are listed as identifiers that are never abandoned. -/
  allowList : List WideText := []
  deriving DecidableEq, Repr

namespace Settings

/-- The names of directories that are not entered.  Names on a disk are not torn, so that torn ones do not
count. -/
def ignored (settings : Settings) : List String :=
  settings.ignoreList.filterMap WideText.sound?

/-- Identifiers that are never abandoned.  The texts of files are not torn, and so no identifier is. -/
def allowed (settings : Settings) : List String :=
  settings.allowList.filterMap WideText.sound?

/-- Why settings are refused. -/
inductive Refusal
  | notMapping
  | unknownKeys (keys : List WideText)
  | workersNotPositive
  | charsetNotText
  | unknownCharset (name : String)
  /-- A setting that must be a list of texts is none. -/
  | notTextList (key : String)
  /-- There is no file at the given path. -/
  | notFound (path : String)
  /-- The file cannot be read, or is malformed.  The reason is not in the words of the program: the disk or the
  loader gives it. -/
  | unloadable (path : String) (reason : WideText)
  deriving DecidableEq, Repr

/-- The message of a refusal. -/
def Refusal.message : Refusal → WideText
  | notMapping => "configuration must be a mapping"
  | unknownKeys keys => "unknown configuration keys: " ++ WideText.join ", " keys
  | workersNotPositive => "'workers' must be a positive integer"
  | charsetNotText => "'encoding' must be a string"
  | unknownCharset name => "unknown encoding: " ++ name
  | notTextList key => "'" ++ key ++ "' must be a list of strings"
  | notFound path => "configuration file not found: " ++ path
  | unloadable path reason => "cannot load " ++ path ++ ": " ++ reason

/-- The failure of a refusal. -/
def Refusal.failure (r : Refusal) : Failure :=
  .badSettings r.message

end Settings

end StringAudit
