import StringAudit.Charset.Codecs
import StringAudit.Settings.Basic
import StringAudit.Yaml.Value

/-!
# Settings from a value

Settings are a mapping from the keys `workers`, `encoding`, `ignore_dirs` and `allowlist`; what is not set
has its usual value, and so has everything if there is no value at all.  Nothing else is accepted.
-/

namespace StringAudit.Settings

open Yaml (Value)

variable [Codecs]

/-- The keys of settings. -/
def keys : List String :=
  ["workers", "encoding", "ignore_dirs", "allowlist"]

/-- The texts among the keys of a mapping that are no keys of settings, in ascending order, each once;
nothing if there is a key that is no text. -/
def strangeKeys? (entries : List (Value × Value)) : Option (List WideText) :=
  (entries.mapM fun (e : Value × Value) => e.1.wide?).map fun texts =>
    WideText.sorted (texts.filter fun t => !(keys.map WideText.sound).contains t).eraseDups

/-- The number of workers. -/
def workersOf : Option Value → Except Refusal (Option Int)
  | none | some .null => .ok none
  | some (.int n) => if 1 ≤ n then .ok (some n) else .error .workersNotPositive
  | some _ => .error .workersNotPositive

/-- The failure of a name under which the empty text cannot be written.  Only a name that is not known is
refused. -/
def unwritable (name : String) : EncodeFault → Failure
  | .unknownName _ | .notCharset _ => (Refusal.unknownCharset name).failure
  | .unusableName => .breakdown .unusableCharset
  | fault => .breakdown (.brokenCharset fault.message)

/-- The name of the character set, which must be known: the empty text is written under it to see that. -/
def charsetOf (entry : Option Value) : Except Failure String :=
  match entry.getD (.text usualCharset) with
  | .text name =>
      match Codecs.encode name "" with
      | .ok _ => .ok name
      | .error fault => .error (unwritable name fault)
  | .torn _ => .error (.breakdown .tornCharset)
  | _ => .error Refusal.charsetNotText.failure

/-- A list of texts; a value that counts as nothing is the empty list. -/
def textsOf (key : String) (entry : Option Value) : Except Refusal (List WideText) :=
  match entry with
  | none => .ok []
  | some value =>
      if value.isVoid then .ok []
      else match value with
        | .sequence items => ((items.mapM Value.wide?).map .ok).getD (.error (.notTextList key))
        | _ => .error (.notTextList key)

/-- The settings that a mapping makes. -/
def ofEntries (entries : List (Value × Value)) : Except Failure Settings := do
  match strangeKeys? entries with
  | none => throw (.breakdown .keyNotText)
  | some [] => pure ()
  | some strange => throw (Refusal.unknownKeys strange).failure
  let entry := fun key => Value.valueOf? key entries
  let workers ← (workersOf (entry "workers")).mapError Refusal.failure
  let charset ← charsetOf (entry "encoding")
  let ignoreList ← (textsOf "ignore_dirs" (entry "ignore_dirs")).mapError Refusal.failure
  let allowList ← (textsOf "allowlist" (entry "allowlist")).mapError Refusal.failure
  pure { workers, charset, ignoreList, allowList }

/-- The settings that a value makes. -/
def ofValue : Value → Except Failure Settings
  | .null => .ok {}
  | .mapping entries => ofEntries entries
  | _ => .error Refusal.notMapping.failure

end StringAudit.Settings
