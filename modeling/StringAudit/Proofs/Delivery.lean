import StringAudit.Proofs.Charset.Ascii
import StringAudit.Proofs.Writer

/-!
# What is announced is delivered

Announcing lines makes one delivery for each of them, in their order.  A text that the character set
lacks is delivered as a diagnostic, and all of the diagnostic is in ASCII but for the name of the character
set.  So a writer delivers every text exactly if its character set is known and has the characters of
that name as messages quote it; a name in ASCII always does.
-/

namespace StringAudit

/-! ## Quoting in ASCII -/

namespace Text

open Charset (Ascii)

theorem ascii_toDigits (n : Nat) : Ascii (Nat.toDigits 16 n) := by
  have digit : ∀ d < 16, (Nat.digitChar d).toNat < 0x80 := by decide
  induction n using Nat.strongRecOn with
  | ind n ih =>
      rw [Nat.toDigits_eq_if (by decide)]
      split
      · rename_i single
        exact List.forall_mem_singleton.mpr (digit n single)
      · rename_i more
        have smaller : n / 16 < n := Nat.div_lt_self (by omega) (by decide)
        intro c mem
        rcases List.mem_append.mp mem with front | last
        · exact ih _ smaller c front
        · obtain rfl := List.mem_singleton.mp last
          exact digit _ (Nat.mod_lt n (by decide))

theorem ascii_hexadecimal (width n : Nat) : Ascii (hexadecimal width n) := by
  intro c mem
  rcases List.mem_append.mp mem with padding | digits
  · obtain rfl := List.eq_of_mem_replicate padding
    decide
  · exact ascii_toDigits n c digits

theorem ascii_codePointEscape (c : Char) : Ascii (codePointEscape c) := by
  have escaped : ∀ letter : Char, letter.toNat < 0x80 → ∀ width,
      Ascii ('\\' :: letter :: hexadecimal width c.toNat) := by
    intro letter ascii width
    exact List.forall_mem_cons.mpr
      ⟨by decide, List.forall_mem_cons.mpr ⟨ascii, ascii_hexadecimal width _⟩⟩
  simp only [codePointEscape]
  split
  · exact escaped 'x' (by decide) 2
  split
  · exact escaped 'u' (by decide) 4
  · exact escaped 'U' (by decide) 8

theorem ascii_quotedChar {plain : Char → Bool} {mark c : Char} (markAscii : mark.toNat < 0x80)
    (plainAscii : plain c = true → c.toNat < 0x80) : Ascii (quotedChar plain mark c) := by
  rw [quotedChar]
  split
  · rename_i enclosing
    have ascii : c.toNat < 0x80 := by
      rcases enclosing with rfl | rfl
      · exact markAscii
      · decide
    exact List.forall_mem_cons.mpr ⟨by decide, List.forall_mem_singleton.mpr ascii⟩
  split
  · decide
  split
  · decide
  split
  · decide
  split
  · rename_i shown
    exact List.forall_mem_singleton.mpr (plainAscii shown)
  · exact ascii_codePointEscape c

theorem ascii_quoteMark (s : List Char) : (quoteMark s).toNat < 0x80 := by
  rw [quoteMark]
  split <;> decide

/-- Something in quotes is in ASCII if its parts are. -/
theorem ascii_enclosed {α : Type} {mark : Char} {part : α → List Char} {items : List α}
    (markAscii : mark.toNat < 0x80) (parts : ∀ item ∈ items, Ascii (part item)) :
    Ascii (String.ofList (mark :: items.flatMap part ++ [mark])).toList := by
  rw [String.toList_ofList]
  intro c mem
  rcases List.mem_append.mp mem with front | last
  · rcases List.mem_cons.mp front with rfl | inside
    · exact markAscii
    · obtain ⟨item, itemMem, charMem⟩ := List.mem_flatMap.mp inside
      exact parts item itemMem c charMem
  · obtain rfl := List.mem_singleton.mp last
    exact markAscii

/-- A quoted text is in ASCII if the characters are that it shows as themselves. -/
theorem ascii_quotedWith {plain : Char → Bool} {s : String}
    (plainAscii : ∀ c ∈ s.toList, plain c = true → c.toNat < 0x80) :
    Ascii (quotedWith plain s).toList := by
  have markAscii := ascii_quoteMark s.toList
  exact ascii_enclosed markAscii fun c mem => ascii_quotedChar markAscii (plainAscii c mem)

theorem toNat_lt_of_isPlainAscii {c : Char} (plain : isPlainAscii c = true) : c.toNat < 0x80 := by
  rw [isPlainAscii, Bool.and_eq_true, decide_eq_true_iff, decide_eq_true_iff] at plain
  omega

end Text

namespace WideText

theorem ascii_quotedPoint {mark : Char} (markAscii : mark.toNat < 0x80) (point : CodePoint) :
    Charset.Ascii (quotedPoint mark point) := by
  cases point with
  | char c => exact Text.ascii_quotedChar markAscii Text.toNat_lt_of_isPlainAscii
  | surrogate n =>
      exact List.forall_mem_cons.mpr
        ⟨by decide, List.forall_mem_cons.mpr ⟨by decide, Text.ascii_hexadecimal 4 _⟩⟩

/-- In a diagnostic, every text is in ASCII, also a torn one. -/
theorem ascii_quotedAscii (text : WideText) : Charset.Ascii text.quotedAscii.toList := by
  cases text with
  | sound s => exact Text.ascii_quotedWith fun c _ => Text.toNat_lt_of_isPlainAscii
  | torn t =>
      have markAscii := Text.ascii_quoteMark ((torn t).points.filterMap CodePoint.char?)
      exact Text.ascii_enclosed markAscii fun point _ => ascii_quotedPoint markAscii point

end WideText

/-! ## The characters of a character set -/

namespace Charset

/-- A character set has a character. -/
def Has : Charset → Char → Prop
  | .bytewise set, c => set.byte? c ≠ none
  | _, _ => True

instance (set : Charset) (c : Char) : Decidable (set.Has c) := by
  cases set <;> unfold Has <;> infer_instance

theorem has_of_ascii (set : Charset) {c : Char} (ascii : c.toNat < 0x80) : set.Has c := by
  cases set with
  | bytewise set => simp [Has, byte?_of_ascii set ascii]
  | _ => trivial

/-- A text can be written exactly if the character set has its characters. -/
theorem exists_encode_iff (set : Charset) {text : List Char} :
    (∃ bytes, set.encode text = .ok bytes) ↔ ∀ c ∈ text, set.Has c := by
  match set with
  | .bytewise set =>
      have complete : text.dropWhile (!set.lacks ·) = [] ↔ ∀ c ∈ text, set.byte? c ≠ none := by
        simp [List.dropWhile_eq_nil_iff, Bytewise.lacks, Option.isSome_iff_ne_none]
      simp only [Has, ← complete, encode, Bytewise.encode]
      split
      · rename_i nothing
        simp [nothing]
      · rename_i lacking
        simp [lacking]
  | .utf8 false | .utf8 true | .utf16 none | .utf16 (some _) | .utf32 none | .utf32 (some _) =>
      exact iff_of_true ⟨_, rfl⟩ fun _ _ => trivial

theorem encode_eq_error (set : Charset) {text : List Char} {fault : EncodeFault}
    (failed : set.encode text = .error fault) :
    ∃ set first start stop, fault = .unencodable set first start stop := by
  match set with
  | .bytewise set =>
      rw [encode, Bytewise.encode] at failed
      split at failed
      · cases failed
      · cases failed
        exact ⟨_, _, _, _, rfl⟩
  | .utf8 false | .utf8 true | .utf16 none | .utf16 (some _) | .utf32 none | .utf32 (some _) =>
      cases failed

/-- Only the character U+0000 makes a name unusable. -/
theorem meaning_eq_unusable_iff {name : String} :
    meaning name = .unusable ↔ '\x00' ∈ name.toList := by
  have registered : ∀ r ∈ register, r.meaning ≠ .unusable := by decide
  rw [meaning]
  constructor
  · intro unusable
    by_contra clean
    rw [if_neg (by simpa using clean)] at unusable
    split at unusable
    · rename_i r found
      exact registered r (List.mem_of_find?_eq_some found) unusable
    · cases unusable
  · intro held
    rw [if_pos (by simpa using held)]

/-- A name without the character U+0000 can at least be looked up. -/
theorem encodeNamed_ne_unusableName {name text : String} (usable : '\x00' ∉ name.toList) :
    encodeNamed name text ≠ .error .unusableName := by
  intro failed
  rw [encodeNamed] at failed
  split at failed
  · obtain ⟨_, _, _, _, same⟩ := encode_eq_error _ failed
    cases same
  · cases failed
  · cases failed
  · cases failed
  · rename_i unusable
    exact usable (meaning_eq_unusable_iff.mp unusable)

theorem encode_ne_unusableName {name : String} (usable : '\x00' ∉ name.toList) (text : WideText) :
    Codecs.encode name text ≠ .error .unusableName := by
  cases text with
  | sound text => exact encodeNamed_ne_unusableName usable
  | torn text =>
      have empty := @encodeNamed_ne_unusableName name "" usable
      change encodeWide name (.torn text) ≠ _
      rw [encodeWide]
      split
      · simp
      · rename_i fault failed
        rwa [failed] at empty

/-- The name of a character set that is known can be looked up. -/
theorem usable_of_meaning {name : String} {c : Charset} (means : meaning name = .charset c) :
    '\x00' ∉ name.toList := by
  intro mem
  cases (meaning_eq_unusable_iff.mpr mem).symm.trans means

end Charset

/-! ## Writers -/

namespace Writer

/-- What a text comes to with the register of character sets. -/
theorem delivery_eq (w : Writer) (text : String) :
    w.delivery text =
      match Charset.encodeNamed w.charset text with
      | .ok bytes => .ok (w.outlet, bytes)
      | .error .unusableName => .error (.breakdown .unusableCharset)
      | .error _ =>
          match Charset.encodeNamed w.charset (w.diagnostic text) with
          | .ok bytes => .ok (w.alarm, bytes)
          | .error .unusableName => .error (.breakdown .unusableCharset)
          | .error _ =>
              .error (.unreportable
                ("failed to write to stderr with string: " ++ Text.quotedAscii (w.diagnostic text))) :=
  rfl

/-- The character set of a writer is known, and it has the characters of its name as messages quote it.
-/
def Sound (w : Writer) : Prop :=
  ∃ c, Charset.meaning w.charset = .charset c ∧ ∀ char ∈ (Text.quoted w.charset).toList, c.Has char

/-- A character set that is known by a name in ASCII makes a writer sound. -/
theorem Sound.of_ascii {w : Writer} {c : Charset} (means : Charset.meaning w.charset = .charset c)
    (ascii : Charset.Ascii w.charset.toList) : w.Sound := by
  have quoted : Charset.Ascii (Text.quotedWith Text.isPrintable w.charset).toList :=
    Text.ascii_quotedWith fun char mem _ => ascii char mem
  refine ⟨c, means, fun char mem => c.has_of_ascii (quoted char ?_)⟩
  rwa [Text.quoted] at mem

theorem mem_toList_append {front back : String} {char : Char} :
    char ∈ (front ++ back).toList ↔ char ∈ front.toList ∨ char ∈ back.toList := by
  rw [String.toList_append, List.mem_append]

theorem mem_diagnostic_iff {w : Writer} {text : WideText} {char : Char} :
    char ∈ (w.diagnostic text).toList ↔
      char ∈ "Failed to convert string: ".toList ∨ char ∈ text.quotedAscii.toList ∨
        char ∈ " to bytes using encoding: ".toList ∨ char ∈ (Text.quoted w.charset).toList ∨
        char ∈ "\n".toList := by
  have parts : w.diagnostic text = "Failed to convert string: " ++ text.quotedAscii ++
      " to bytes using encoding: " ++ Text.quoted w.charset ++ "\n" := rfl
  simp only [parts, mem_toList_append, or_assoc]

/-- A diagnostic is in ASCII but for the name of the character set. -/
theorem ascii_or_of_mem_diagnostic {w : Writer} {text : WideText} {char : Char}
    (mem : char ∈ (w.diagnostic text).toList) :
    char.toNat < 0x80 ∨ char ∈ (Text.quoted w.charset).toList := by
  have front : Charset.Ascii "Failed to convert string: ".toList := by decide +kernel
  have middle : Charset.Ascii " to bytes using encoding: ".toList := by decide +kernel
  have back : Charset.Ascii "\n".toList := by decide +kernel
  rcases mem_diagnostic_iff.mp mem with mem | mem | mem | mem | mem
  · exact Or.inl (front char mem)
  · exact Or.inl (text.ascii_quotedAscii char mem)
  · exact Or.inl (middle char mem)
  · exact Or.inr mem
  · exact Or.inl (back char mem)

/-- A writer with a known character set sends a text exactly if the text can be written, or else the character
set has its diagnostic. -/
theorem exists_sending_iff {w : Writer} {c : Charset} (means : Charset.meaning w.charset = .charset c)
    {text : WideText} :
    (∃ sent, w.sending text = .ok sent) ↔
      (∃ bytes, Codecs.encode w.charset text = .ok bytes) ∨
        ∀ char ∈ (w.diagnostic text).toList, c.Has char := by
  have usable := Charset.encode_ne_unusableName (Charset.usable_of_meaning means)
  have encodeNamed : Charset.encodeNamed w.charset (w.diagnostic text) =
      c.encode (w.diagnostic text).toList := by
    simp only [Charset.encodeNamed, means]
  rw [← c.exists_encode_iff, ← encodeNamed, sending, Codecs.encode_eq]
  cases encoded : Codecs.encode w.charset text with
  | ok bytes => simp
  | error fault =>
      cases fault with
      | unusableName => exact absurd encoded (usable text)
      | _ =>
          cases diagnosed : Charset.encodeNamed w.charset (w.diagnostic text) with
          | ok bytes => simp
          | error fault =>
              cases fault with
              | unusableName => exact absurd diagnosed (usable (w.diagnostic text))
              | _ => simp

/-- A writer with a known character set delivers a text exactly if the character set has the text or its
diagnostic. -/
theorem exists_delivery_iff {w : Writer} {c : Charset} (means : Charset.meaning w.charset = .charset c)
    {text : String} :
    (∃ sent, w.delivery text = .ok sent) ↔
      (∀ char ∈ text.toList, c.Has char) ∨ ∀ char ∈ (w.diagnostic text).toList, c.Has char := by
  rw [← c.exists_encode_iff, delivery, exists_sending_iff means, Codecs.encode_eq, Charset.encodeNamed, means]

/-- A writer that delivers any text has a known character set. -/
theorem exists_meaning_of_delivery {w : Writer} {text : String} {sent : Outlet × List UInt8}
    (delivered : w.delivery text = .ok sent) : ∃ c, Charset.meaning w.charset = .charset c := by
  rw [delivery_eq, Charset.encodeNamed, Charset.encodeNamed] at delivered
  cases means : Charset.meaning w.charset with
  | charset c => exact ⟨c, rfl⟩
  | _ => simp [means] at delivered

/-- A text in ASCII is delivered as it is in every known character set. -/
theorem delivery_of_ascii {w : Writer} {c : Charset} (means : Charset.meaning w.charset = .charset c)
    {text : String} (ascii : Charset.Ascii text.toList) :
    ∃ bytes, Charset.encodeNamed w.charset text = .ok bytes ∧ w.delivery text = .ok (w.outlet, bytes) := by
  obtain ⟨bytes, encoded⟩ := c.exists_encode_of_ascii ascii
  have encodedNamed : Charset.encodeNamed w.charset text = .ok bytes := by
    simp only [Charset.encodeNamed, means, encoded]
  exact ⟨bytes, encodedNamed, by rw [delivery_eq, encodedNamed]⟩

/-- Where any line can be announced, every line in ASCII can. -/
theorem canAnnounce_of_ascii {writer : Option Writer} {told line : String} (can : CanAnnounce writer told)
    (ascii : Charset.Ascii line.toList) : CanAnnounce writer line := by
  intro w writerEq
  obtain ⟨sent, delivered⟩ := can w writerEq
  obtain ⟨c, means⟩ := exists_meaning_of_delivery delivered
  have newline : Charset.Ascii "\n".toList := by decide +kernel
  obtain ⟨bytes, -, deliveredLine⟩ := delivery_of_ascii means (ascii.append newline)
  exact ⟨_, deliveredLine⟩

/-- A sound writer sends every text, also a torn one. -/
theorem Sound.exists_sending {w : Writer} (sound : w.Sound) (text : WideText) :
    ∃ sent, w.sending text = .ok sent := by
  obtain ⟨c, means, quotable⟩ := sound
  refine (exists_sending_iff means).mpr (Or.inr fun char mem => ?_)
  rcases ascii_or_of_mem_diagnostic mem with ascii | quoted
  · exact c.has_of_ascii ascii
  · exact quotable char quoted

/-- A writer delivers every text exactly if it is sound. -/
theorem sound_iff {w : Writer} : w.Sound ↔ ∀ text, ∃ sent, w.delivery text = .ok sent := by
  constructor
  · intro sound text
    exact sound.exists_sending text
  · intro delivers
    obtain ⟨_, delivered⟩ := delivers ""
    obtain ⟨c, means⟩ := exists_meaning_of_delivery delivered
    refine ⟨c, means, ?_⟩
    cases c with
    | bytewise set =>
        -- No character set of one byte has this ideograph, so that it is delivered as a diagnostic.
        have lacking : ¬ Charset.Has (.bytewise set) '\u65E5' := by
          cases set <;> decide
        rcases (exists_delivery_iff means).mp (delivers "\u65E5") with had | diagnosed
        · exact absurd (had _ (List.mem_singleton_self _)) lacking
        · intro char mem
          exact diagnosed char (mem_diagnostic_iff.mpr (Or.inr (Or.inr (Or.inr (Or.inl mem)))))
    | _ => exact fun _ _ => trivial

/-- A text that is not sent in a known character set is one that could not be reported, and the writer is not
sound. -/
theorem unreportable_of_sending {w : Writer} {c : Charset}
    (means : Charset.meaning w.charset = .charset c) {text : WideText} {failure : Failure}
    (unsent : w.sending text = .error failure) :
    ¬ w.Sound ∧ ∃ lost, failure = .unreportable lost := by
  have usable := Charset.encode_ne_unusableName (Charset.usable_of_meaning means)
  constructor
  · intro sound
    obtain ⟨sent, wasSent⟩ := sound.exists_sending text
    cases wasSent.symm.trans unsent
  · rw [sending] at unsent
    split at unsent
    · cases unsent
    · rename_i failed
      exact absurd failed (usable _)
    split at unsent
    · cases unsent
    · rename_i failed
      exact absurd failed (usable _)
    · cases unsent
      exact ⟨_, rfl⟩

/-- A sound writer can be announced to. -/
theorem canAnnounce_of_sound {writer : Option Writer} (sound : ∀ w, writer = some w → w.Sound)
    (line : String) : CanAnnounce writer line :=
  fun w writerEq => sound_iff.mp (sound w writerEq) (line ++ "\n")

/-- A line for a sound writer is written, and the disk is the same. -/
theorem exists_perform_announce {writer : Option Writer} (sound : ∀ w, writer = some w → w.Sound)
    (line : String) (before : RunState) :
    ∃ after, (announce writer line).perform before = (.ok (), after) ∧ after.disk = before.disk := by
  have looks := looksOnly_announce writer line
  obtain ⟨after, announced⟩ :=
    looks.exists_perform_eq_ok_iff.mpr (seen_announce_eq_ok_iff.mpr (canAnnounce_of_sound sound line))
  exact ⟨after, announced, (looks.frame announced).1⟩

/-! ## Announcing lines -/

/-- One console comes from another by writing lines: each is delivered once, in their order. -/
inductive Delivers (w : Writer) : List String → Console → Console → Prop
  | nil (console : Console) : Delivers w [] console console
  | cons {line : String} {lines : List String} {outlet : Outlet} {bytes : List UInt8}
      {earlier later : Console} (delivered : w.delivery (line ++ "\n") = .ok (outlet, bytes))
      (others : Delivers w lines (earlier.send outlet bytes) later) :
      Delivers w (line :: lines) earlier later

/-- One console comes from another by writing lines, if there is a writer for them. -/
def Announced (writer : Option Writer) (lines : List String) (earlier later : Console) : Prop :=
  match writer with
  | none => later = earlier
  | some w => w.Delivers lines earlier later

/-- Announcing lines delivers them and leaves the disk as it is. -/
theorem announced_of_perform {writer : Option Writer} {lines : List String} {before after : RunState}
    (performed : (lines.forM (announce writer)).perform before = (.ok (), after)) :
    after.disk = before.disk ∧ Announced writer lines before.console after.console := by
  induction lines generalizing before with
  | nil =>
      cases performed
      cases writer with
      | none => exact ⟨rfl, rfl⟩
      | some w => exact ⟨rfl, .nil _⟩
  | cons line rest ih =>
      obtain ⟨_, between, first, others⟩ := Action.perform_bind_eq_ok_iff.mp performed
      obtain ⟨sameDisk, announced⟩ := ih others
      cases writer with
      | none =>
          cases first
          exact ⟨sameDisk, announced⟩
      | some w =>
          rw [announce, writeLine, perform_write] at first
          split at first
          · rename_i outlet bytes delivered
            cases first
            exact ⟨sameDisk, .cons delivered announced⟩
          · cases first

end Writer

end StringAudit
