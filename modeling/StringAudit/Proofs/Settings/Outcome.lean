import Mathlib.Tactic.Common
import StringAudit.Proofs.Delivery
import StringAudit.Proofs.Settings

/-!
# What loading settings comes to

Settings are accepted, or refused with a message, or else loading them breaks down.  It breaks down where
the path is too long to be looked for, where the file is no UTF-8 or has a scalar that is not of its type,
where a key of the mapping is no text, and where the name of the character set cannot be looked up, or is known
and has no character set behind it.  Nothing else leads there: every other mistake in the settings is refused.

None of this depends on the libraries: it holds with whatever the file is loaded, and whichever character sets
are known.
-/

namespace StringAudit

/-- A loop of options fails exactly if one of its items does. -/
theorem mapM_eq_none_iff {α β : Type} {f : α → Option β} {items : List α} :
    items.mapM f = none ↔ ∃ item ∈ items, f item = none := by
  induction items with
  | nil => simp
  | cons item rest ih =>
      simp only [List.mapM_cons, List.mem_cons, exists_eq_or_imp, ← ih]
      cases f item with
      | none => simp
      | some b => cases rest.mapM f <;> simp

theorem mapM_eq_some_iff {α β : Type} {f : α → Option β} {items : List α} {results : List β} :
    items.mapM f = some results ↔ items.map f = results.map some := by
  induction items generalizing results with
  | nil => cases results <;> simp
  | cons item rest ih =>
      rw [List.mapM_cons, List.map_cons]
      cases results with
      | nil => cases f item <;> cases rest.mapM f <;> simp
      | cons b others =>
          rw [List.map_cons, List.cons.injEq, ← ih]
          cases f item <;> cases rest.mapM f <;> simp

namespace Settings

/-- A result that is accepted, or refused, or a breakdown of some kind. -/
inductive Settles {α : Type} (breaks : Breakdown → Prop) : Except Failure α → Prop
  | accepted (a : α) : Settles breaks (.ok a)
  | refused (r : Refusal) : Settles breaks (.error r.failure)
  | broken {cause : Breakdown} (mem : breaks cause) : Settles breaks (.error (.breakdown cause))

namespace Settles

variable {α β : Type} {breaks : Breakdown → Prop}

theorem mono {others : Breakdown → Prop} {result : Except Failure α} (settles : Settles breaks result)
    (among : ∀ cause, breaks cause → others cause) : Settles others result := by
  cases settles with
  | accepted a => exact .accepted a
  | refused r => exact .refused r
  | broken mem => exact .broken (among _ mem)

theorem bind {first : Except Failure α} {next : α → Except Failure β} (settles : Settles breaks first)
    (onward : ∀ a, first = .ok a → Settles breaks (next a)) : Settles breaks (first >>= next) := by
  cases settles with
  | accepted a => exact onward a rfl
  | refused r => exact .refused r
  | broken mem => exact .broken mem

/-- A check that can only refuse never breaks down. -/
theorem of_mapError (result : Except Refusal α) : Settles breaks (result.mapError Refusal.failure) := by
  cases result with
  | ok a => exact .accepted a
  | error r => exact .refused r

theorem cases {result : Except Failure α} (settles : Settles breaks result) :
    (∃ a, result = .ok a) ∨ (∃ r : Refusal, result = .error r.failure) ∨
      ∃ cause, result = .error (.breakdown cause) := by
  cases settles with
  | accepted a => exact Or.inl ⟨a, rfl⟩
  | refused r => exact Or.inr (Or.inl ⟨r, rfl⟩)
  | broken => exact Or.inr (Or.inr ⟨_, rfl⟩)

/-- Where every breakdown of the kind is met, a result is a breakdown exactly if it is of the kind. -/
theorem eq_breakdown_iff {result : Except Failure α} {cause : Breakdown} (settles : Settles breaks result)
    (met : breaks cause → result = .error (.breakdown cause)) :
    result = .error (.breakdown cause) ↔ breaks cause := by
  refine ⟨fun broken => ?_, met⟩
  cases settles with
  | accepted a => cases broken
  | refused r => cases broken
  | broken mem =>
      cases broken
      exact mem

end Settles

/-- No refusal is a breakdown. -/
theorem Refusal.failure_ne (r : Refusal) (cause : Breakdown) : r.failure ≠ .breakdown cause := by
  intro same
  cases same

open Yaml (Value)

/-! ## Values -/

section values

variable [Codecs]

/-- A name under which not even the empty text can be written, though it is no unknown name: it cannot be
looked up, or it is known and the writing breaks. -/
inductive Breaking (name : String) : Breakdown → Prop
  | unusable (fails : Codecs.encode name "" = .error .unusableName) : Breaking name .unusableCharset
  | unencodable {set : Bytewise} {first : Char} {start stop : Nat}
      (fails : Codecs.encode name "" = .error (.unencodable set first start stop)) :
      Breaking name (.brokenCharset (EncodeFault.message (.unencodable set first start stop)))
  | lost {reason : String} (fails : Codecs.encode name "" = .error (.lost reason)) :
      Breaking name (.brokenCharset reason)

/-- The checks come as far as the name of the character set: nothing is wrong with what is checked before. -/
structure Reaches (entries : List (Value × Value)) : Prop where
  known : ∀ entry ∈ entries, ∃ key ∈ keys, entry.1.text? = some key
  workers : ∃ n, workersOf (Value.valueOf? "workers" entries) = .ok n

/-- A value that breaks the checks on settings down, so that it is neither accepted nor refused. -/
inductive Unfit : Value → Breakdown → Prop
  /-- A key is no text. -/
  | key {entries : List (Value × Value)} {entry : Value × Value} (mem : entry ∈ entries)
      (odd : entry.1.wide? = none) : Unfit (.mapping entries) .keyNotText
  /-- The name of the character set is torn. -/
  | torn {entries : List (Value × Value)} {name : Torn} (reaches : Reaches entries)
      (named : Value.valueOf? "encoding" entries = some (.torn name)) :
      Unfit (.mapping entries) .tornCharset
  /-- The name of the character set cannot be looked up, or has no character set behind it. -/
  | charset {entries : List (Value × Value)} {name : String} {cause : Breakdown}
      (reaches : Reaches entries) (named : Value.valueOf? "encoding" entries = some (.text name))
      (breaking : Breaking name cause) : Unfit (.mapping entries) cause

omit [Codecs] in
theorem wide?_eq_sound_iff {value : Value} {text : String} :
    value.wide? = some (.sound text) ↔ value.text? = some text := by
  cases value <;> simp [Value.wide?, Value.text?]

omit [Codecs] in
theorem strangeKeys?_eq_none_iff {entries : List (Value × Value)} :
    strangeKeys? entries = none ↔ ∃ entry ∈ entries, entry.1.wide? = none := by
  rw [strangeKeys?, Option.map_eq_none_iff, mapM_eq_none_iff]

omit [Codecs] in
theorem sorted_eq_nil_iff {texts : List WideText} : WideText.sorted texts = [] ↔ texts = [] := by
  have perm := List.mergeSort_perm texts fun a b => decide (a ≤ b)
  rw [WideText.sorted]
  constructor
  · intro nothing
    exact List.nil_perm.mp (nothing ▸ perm)
  · rintro rfl
    exact perm.eq_nil

omit [Codecs] in
/-- No key is strange exactly if every key is a key of settings. -/
theorem strangeKeys?_eq_nil_iff {entries : List (Value × Value)} :
    strangeKeys? entries = some [] ↔ ∀ entry ∈ entries, ∃ key ∈ keys, entry.1.text? = some key := by
  rw [strangeKeys?, Option.map_eq_some_iff]
  constructor
  · rintro ⟨texts, textsEq, nothing⟩ entry mem
    have same := mapM_eq_some_iff.mp textsEq
    obtain ⟨text, textMem, textEq⟩ := List.mem_map.mp (same ▸ List.mem_map_of_mem mem)
    have isKey : text ∈ keys.map WideText.sound := by
      by_contra strange
      have kept : text ∈ (texts.filter fun t => !(keys.map WideText.sound).contains t).eraseDups := by
        rw [List.mem_eraseDups, List.mem_filter, Bool.not_eq_true', List.contains_eq_mem,
          decide_eq_false_iff_not]
        exact ⟨textMem, strange⟩
      rw [sorted_eq_nil_iff.mp nothing] at kept
      exact absurd kept List.not_mem_nil
    obtain ⟨key, keyMem, rfl⟩ := List.mem_map.mp isKey
    exact ⟨key, keyMem, wide?_eq_sound_iff.mp textEq.symm⟩
  · intro known
    cases textsEq : entries.mapM fun e : Value × Value => e.1.wide? with
    | none =>
        obtain ⟨entry, mem, odd⟩ := mapM_eq_none_iff.mp textsEq
        obtain ⟨key, _, keyEq⟩ := known entry mem
        cases odd.symm.trans (wide?_eq_sound_iff.mpr keyEq)
    | some texts =>
        refine ⟨texts, rfl, sorted_eq_nil_iff.mpr (List.eq_nil_iff_forall_not_mem.mpr ?_)⟩
        intro text kept
        rw [List.mem_eraseDups, List.mem_filter] at kept
        obtain ⟨textMem, strange⟩ := kept
        obtain ⟨entry, mem, entryEq⟩ := List.mem_map.mp
          (mapM_eq_some_iff.mp textsEq ▸ List.mem_map_of_mem textMem)
        obtain ⟨key, keyMem, keyEq⟩ := known entry mem
        obtain rfl : .sound key = text :=
          Option.some.inj ((wide?_eq_sound_iff.mpr keyEq).symm.trans entryEq)
        simp [keyMem] at strange

/-- A name under which the empty text cannot be written is refused, or it breaks the checks. -/
theorem charsetOf_settles (entry : Option Value) :
    Settles (fun cause =>
      (∃ name, entry = some (.torn name) ∧ cause = .tornCharset) ∨
        ∃ name, entry = some (.text name) ∧ Breaking name cause) (charsetOf entry) := by
  rw [charsetOf]
  split
  · rename_i name nameEq
    split
    · exact .accepted name
    · rename_i fault fails
      have given : entry = some (.text name) := by
        cases entry with
        | some value => exact congrArg some nameEq
        | none =>
            -- The usual character set is known.
            cases nameEq
            obtain ⟨bytes, encoded⟩ := Codecs.knows_utf8
            cases encoded.symm.trans fails
      cases fault with
      | unknownName => exact .refused _
      | notCharset => exact .refused _
      | unusableName => exact .broken (Or.inr ⟨name, given, .unusable fails⟩)
      | unencodable => exact .broken (Or.inr ⟨name, given, .unencodable fails⟩)
      | lost => exact .broken (Or.inr ⟨name, given, .lost fails⟩)
  · rename_i name nameEq
    cases entry with
    | some value => exact .broken (Or.inl ⟨name, congrArg some nameEq, rfl⟩)
    | none => cases nameEq
  · exact .refused _

theorem Breaking.charsetOf_eq {name : String} {cause : Breakdown} (breaking : Breaking name cause) :
    charsetOf (some (.text name)) = .error (.breakdown cause) := by
  rw [charsetOf, Option.getD_some]
  cases breaking with
  | unusable fails =>
      simp only [fails]
      rfl
  | unencodable fails =>
      simp only [fails]
      rfl
  | lost fails =>
      simp only [fails]
      rfl

/-- Where every key is known, the values of the keys are checked one after the other. -/
theorem ofEntries_eq_of_known {entries : List (Value × Value)} (known : strangeKeys? entries = some []) :
    ofEntries entries = (do
      let workers ← (workersOf (Value.valueOf? "workers" entries)).mapError Refusal.failure
      let charset ← charsetOf (Value.valueOf? "encoding" entries)
      let ignoreList ← (textsOf "ignore_dirs" (Value.valueOf? "ignore_dirs" entries)).mapError Refusal.failure
      let allowList ← (textsOf "allowlist" (Value.valueOf? "allowlist" entries)).mapError Refusal.failure
      pure { workers, charset, ignoreList, allowList }) := by
  rw [ofEntries, known]

theorem ofEntries_settles (entries : List (Value × Value)) :
    Settles (Unfit (.mapping entries)) (ofEntries entries) := by
  rcases strange : strangeKeys? entries with _ | _ | ⟨first, others⟩
  case none =>
    obtain ⟨entry, mem, odd⟩ := strangeKeys?_eq_none_iff.mp strange
    rw [ofEntries, strange]
    exact .broken (.key mem odd)
  case some.cons =>
    rw [ofEntries, strange]
    exact .refused (.unknownKeys (first :: others))
  case some.nil =>
    -- The name of the character set is looked at only once the number of workers was accepted.
    rw [ofEntries_eq_of_known strange]
    refine (Settles.of_mapError _).bind fun workers workersEq => ?_
    have reaches : Reaches entries :=
      ⟨strangeKeys?_eq_nil_iff.mp strange, workers, Except.mapError_eq_ok_iff.mp workersEq⟩
    have charset := (charsetOf_settles (Value.valueOf? "encoding" entries)).mono fun cause broken => by
      obtain ⟨name, named, rfl⟩ | ⟨name, named, breaking⟩ := broken
      · exact Unfit.torn reaches named
      · exact Unfit.charset reaches named breaking
    refine charset.bind fun name _ => ?_
    exact (Settles.of_mapError _).bind fun ignoreList _ => (Settles.of_mapError _).bind fun allowList _ =>
      .accepted _

/-- A value makes settings, is refused, or is unfit for any check. -/
theorem ofValue_settles (value : Value) : Settles (Unfit value) (ofValue value) := by
  rw [ofValue.eq_def]
  split
  · exact .accepted _
  · exact ofEntries_settles _
  · exact .refused .notMapping

/-- Where the checks come as far as the name of the character set, they break down with it. -/
theorem Reaches.ofValue_eq {entries : List (Value × Value)} {cause : Breakdown} (reaches : Reaches entries)
    (broken : charsetOf (Value.valueOf? "encoding" entries) = .error (.breakdown cause)) :
    ofValue (.mapping entries) = .error (.breakdown cause) := by
  obtain ⟨n, accepted⟩ := reaches.workers
  rw [ofValue, ofEntries_eq_of_known (strangeKeys?_eq_nil_iff.mpr reaches.known), accepted, broken]
  rfl

theorem Unfit.ofValue_eq {value : Value} {cause : Breakdown} (unfit : Unfit value cause) :
    ofValue value = .error (.breakdown cause) := by
  cases unfit with
  | key mem odd =>
      rw [ofValue, ofEntries, strangeKeys?_eq_none_iff.mpr ⟨_, mem, odd⟩]
      rfl
  | torn reaches named =>
      apply reaches.ofValue_eq
      rw [named]
      rfl
  | charset reaches named breaking =>
      apply reaches.ofValue_eq
      rw [named, breaking.charsetOf_eq]

/-- The checks break down on unfit values only. -/
theorem ofValue_eq_breakdown_iff {value : Value} {cause : Breakdown} :
    ofValue value = .error (.breakdown cause) ↔ Unfit value cause :=
  (ofValue_settles value).eq_breakdown_iff Unfit.ofValue_eq

end values

/-! ## Files -/

/-- The path at which settings are looked for. -/
def soughtAt (path directory : Option String) : String :=
  match path with
  | some path => Path.tidy path
  | none => usualPath directory

/-- The bytes of the file in which settings are found. -/
def Stored (path directory : Option String) (disk : Disk) (bytes : List UInt8) : Prop :=
  Disk.isUsable (soughtAt path directory) = true ∧ disk.readBytes (soughtAt path directory) = .ok bytes

/-- What loading settings breaks down on. -/
inductive Breaks [Codecs] [Yaml.Loader] (path directory : Option String) (disk : Disk) : Breakdown → Prop
  | unreachable (usable : Disk.isUsable (soughtAt path directory) = true)
      (long : disk.entry (soughtAt path directory) = .error .nameTooLong) :
      Breaks path directory disk (.unreachable ⟨.nameTooLong, soughtAt path directory, none⟩)
  | undecodable {bytes : List UInt8} {fault : DecodeFault} (stored : Stored path directory disk bytes)
      (undecoded : Yaml.Loader.load bytes = .error (.undecodable fault)) :
      Breaks path directory disk (.undecodable fault)
  | scalar {bytes : List UInt8} {fault : Yaml.ScalarFault} (stored : Stored path directory disk bytes)
      (bad : Yaml.Loader.load bytes = .error (.scalar fault)) : Breaks path directory disk (.badScalar fault)
  | value {bytes : List UInt8} {value : Value} {cause : Breakdown}
      (stored : Stored path directory disk bytes) (loaded : Yaml.Loader.load bytes = .ok value)
      (unfit : Unfit value cause) : Breaks path directory disk cause

variable {path directory : Option String} {disk : Disk}

theorem isThere_of_stored {bytes : List UInt8} (stored : Stored path directory disk bytes) :
    isThere (soughtAt path directory) disk = .ok true := by
  obtain ⟨usable, readEq⟩ := stored
  rw [Disk.readBytes] at readEq
  rw [isThere, usable]
  cases found : disk.entry (soughtAt path directory) with
  | ok entry => rfl
  | error cause =>
      rw [found] at readEq
      cases readEq

/-- Whether settings are there is told, unless their path is too long. -/
theorem isThere_settles (sought : String) (disk : Disk) :
    Settles (fun cause => cause = .unreachable ⟨.nameTooLong, sought, none⟩ ∧
      Disk.isUsable sought = true ∧ disk.entry sought = .error .nameTooLong) (isThere sought disk) := by
  rw [isThere]
  cases usable : Disk.isUsable sought with
  | false => exact .accepted false
  | true =>
      cases found : disk.entry sought with
      | ok entry => exact .accepted true
      | error cause =>
          cases cause with
          | nameTooLong => exact .broken ⟨rfl, rfl, rfl⟩
          | _ => exact .accepted false

theorem isUsable_of_isThere {sought : String} (there : isThere sought disk = .ok true) :
    Disk.isUsable sought = true := by
  cases usable : Disk.isUsable sought with
  | true => rfl
  | false =>
      rw [isThere, usable] at there
      cases there

variable [Codecs] [Yaml.Loader]

/-- Settings that are found are those of their bytes, or their file is refused. -/
theorem ofFile_eq_of_stored {bytes : List UInt8} (stored : Stored path directory disk bytes) :
    ofFile (soughtAt path directory) disk = ofBytes (soughtAt path directory) bytes := by
  rw [ofFile, stored.2]

theorem load_eq (path directory : Option String) (disk : Disk) :
    load path directory disk = isThere (soughtAt path directory) disk >>= fun there =>
      if there then ofFile (soughtAt path directory) disk
      else match path with
        | some _ => .error (Refusal.notFound (soughtAt path directory)).failure
        | none => .ok {} := by
  cases path <;> rfl

theorem load_of_stored {bytes : List UInt8} (stored : Stored path directory disk bytes) :
    load path directory disk = ofBytes (soughtAt path directory) bytes := by
  rw [load_eq, isThere_of_stored stored, ← ofFile_eq_of_stored stored]
  rfl

theorem ofBytes_settles {bytes : List UInt8} (stored : Stored path directory disk bytes)
    (shown : String) : Settles (Breaks path directory disk) (ofBytes shown bytes) := by
  rw [ofBytes]
  split
  · rename_i value loaded
    exact (ofValue_settles value).mono fun cause unfit => .value stored loaded unfit
  · rename_i reason _
    exact .refused (.unloadable shown reason)
  · rename_i fault undecoded
    exact .broken (.undecodable stored undecoded)
  · rename_i fault bad
    exact .broken (.scalar stored bad)

/-- Settings are accepted, or refused, or loading them breaks down. -/
theorem load_settles (path directory : Option String) (disk : Disk) :
    Settles (Breaks path directory disk) (load path directory disk) := by
  have looked := (isThere_settles (soughtAt path directory) disk).mono fun cause broken => by
    obtain ⟨rfl, usable, long⟩ := broken
    exact @Breaks.unreachable _ _ path directory disk usable long
  rw [load_eq]
  refine looked.bind fun there thereEq => ?_
  cases there with
  | false =>
      cases path with
      | some path => exact .refused (.notFound _)
      | none => exact .accepted _
  | true =>
      change Settles _ (ofFile _ disk)
      cases readEq : disk.readBytes (soughtAt path directory) with
      | ok bytes =>
          have stored : Stored path directory disk bytes := ⟨isUsable_of_isThere thereEq, readEq⟩
          rw [ofFile_eq_of_stored stored]
          exact ofBytes_settles stored _
      | error fault =>
          rw [ofFile, readEq]
          exact .refused (.unloadable _ fault.message)

theorem Breaks.load_eq {cause : Breakdown} (breaks : Breaks path directory disk cause) :
    load path directory disk = .error (.breakdown cause) := by
  cases breaks with
  | unreachable usable long =>
      rw [Settings.load_eq, isThere, usable, long]
      rfl
  | undecodable stored undecoded => rw [load_of_stored stored, ofBytes, undecoded]
  | scalar stored bad => rw [load_of_stored stored, ofBytes, bad]
  | value stored loaded unfit =>
      rw [load_of_stored stored, ofBytes, loaded]
      exact unfit.ofValue_eq

/-- Loading settings breaks down for the reasons that are listed, and for no other one. -/
theorem load_eq_breakdown_iff {cause : Breakdown} :
    load path directory disk = .error (.breakdown cause) ↔ Breaks path directory disk cause :=
  (load_settles path directory disk).eq_breakdown_iff Breaks.load_eq

end Settings

end StringAudit
