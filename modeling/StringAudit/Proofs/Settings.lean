import StringAudit.Proofs.Action
import StringAudit.Proofs.Charset.Codecs
import StringAudit.Settings.File

/-!
# Accepted settings

Settings are checked once, when they are loaded.  Whatever source they come from, accepted settings name
a character set that is known, and a number of workers that is positive.  The usual settings pass the
same checks.  All this holds with any library for character sets and any one for YAML.
-/

namespace StringAudit

namespace Settings

/-- What the checks on settings secure. -/
structure Checked [Codecs] (settings : Settings) : Prop where
  known : Codecs.Knows settings.charset
  positive : ∀ n, settings.workers = some n → 1 ≤ n

/-- With the register, checked settings name one of its character sets. -/
theorem Checked.exists_meaning {settings : Settings} (checked : settings.Checked) :
    ∃ c, Charset.meaning settings.charset = .charset c :=
  Codecs.knows_iff.mp checked.known

theorem positive_of_workersOf {entry : Option Yaml.Value} {workers : Option Int}
    (accepted : workersOf entry = .ok workers) : ∀ n, workers = some n → 1 ≤ n := by
  rintro n rfl
  rw [workersOf.eq_def] at accepted
  split at accepted
  · cases accepted
  · cases accepted
  · split at accepted
    · rename_i positive
      cases accepted
      exact positive
    · cases accepted
  · cases accepted

section Codecs

variable [Codecs]

theorem known_of_charsetOf {entry : Option Yaml.Value} {name : String}
    (accepted : charsetOf entry = .ok name) : Codecs.Knows name := by
  rw [charsetOf] at accepted
  split at accepted
  · split at accepted
    · rename_i bytes encoded
      cases accepted
      exact ⟨bytes, encoded⟩
    · cases accepted
  · cases accepted
  · cases accepted

/-- The usual settings pass the checks. -/
theorem checked_usual : Checked {} where
  known := Codecs.knows_utf8
  positive := by
    intro n isSome
    cases isSome

theorem checked_of_ofEntries {entries : List (Yaml.Value × Yaml.Value)} {settings : Settings}
    (accepted : ofEntries entries = .ok settings) : settings.Checked := by
  rw [ofEntries] at accepted
  split at accepted
  · cases accepted
  · obtain ⟨workers, workersEq, accepted⟩ := Except.bind_eq_ok_iff.mp accepted
    obtain ⟨charset, charsetEq, accepted⟩ := Except.bind_eq_ok_iff.mp accepted
    obtain ⟨ignoreList, -, accepted⟩ := Except.bind_eq_ok_iff.mp accepted
    obtain ⟨allowList, -, accepted⟩ := Except.bind_eq_ok_iff.mp accepted
    obtain rfl := Except.ok.inj accepted
    exact ⟨known_of_charsetOf charsetEq, positive_of_workersOf (Except.mapError_eq_ok_iff.mp workersEq)⟩
  · cases accepted

theorem checked_of_ofValue {value : Yaml.Value} {settings : Settings}
    (accepted : ofValue value = .ok settings) : settings.Checked := by
  rw [ofValue.eq_def] at accepted
  split at accepted
  · cases accepted
    exact checked_usual
  · exact checked_of_ofEntries accepted
  · cases accepted

variable [Yaml.Loader]

theorem checked_of_ofFile {path : String} {disk : Disk} {settings : Settings}
    (accepted : ofFile path disk = .ok settings) : settings.Checked := by
  rw [ofFile] at accepted
  split at accepted
  · cases accepted
  rw [ofBytes] at accepted
  split at accepted
  · exact checked_of_ofValue accepted
  all_goals cases accepted

/-- Loaded settings passed the checks, whether there was a file or not. -/
theorem checked_of_load {path directory : Option String} {disk : Disk} {settings : Settings}
    (loaded : load path directory disk = .ok settings) : settings.Checked := by
  rw [load.eq_def] at loaded
  split at loaded
  all_goals
    obtain ⟨there, -, loaded⟩ := Except.bind_eq_ok_iff.mp loaded
    split at loaded
  · exact checked_of_ofFile loaded
  · cases loaded
  · exact checked_of_ofFile loaded
  · cases loaded
    exact checked_usual

end Codecs

end Settings

end StringAudit
