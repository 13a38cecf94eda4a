import StringAudit.Proofs.Charset.Decoding
import StringAudit.Proofs.Settings
import StringAudit.Proofs.Writer.Accounting

/-!
# Reading the output back

Every text is encoded for itself, and the stream has the bytes one behind the other.  With a library that
joins texts, these are the bytes of all that was written.  The character sets here do so, but for a mark that
some put in front of every text: decoded as a whole, such an output has a character U+FEFF in front of every
text but the first.
-/

namespace StringAudit

/-- Wide texts one behind the other. -/
def WideText.concat : List WideText → WideText
  | [] => ""
  | text :: rest => text ++ concat rest

namespace Writer

/-- Something to write: a text as it is, or as a line. -/
inductive Piece
  | text (s : WideText)
  | line (s : WideText)
  deriving DecidableEq, Repr

namespace Piece

/-- The text of a piece. -/
def content : Piece → WideText
  | text s => s
  | line s => s

/-- What a piece comes to: a line has a newline at its end. -/
def whole : Piece → WideText
  | text s => s
  | line s => s ++ "\n"

/-- Write a piece. -/
def write [Codecs] (w : Writer) : Piece → Action Unit
  | text s => w.put s
  | line s => w.putLine s

theorem write_eq [Codecs] (w : Writer) (piece : Piece) : piece.write w = w.put piece.whole := by
  cases piece <;> rfl

end Piece

/-- The library can write a text under the name that a writer has. -/
def CanPut [Codecs] (w : Writer) (text : WideText) : Prop :=
  ∃ bytes, Codecs.encode w.charset text = .ok bytes

section Codecs

variable [Codecs] {w : Writer} {pieces : List Piece}

/-- What can be written under the name of one of the character sets is not torn. -/
theorem exists_sound_of_encode {name : String} {c : Charset} (stands : Codecs.StandsFor name c)
    {text : WideText} {bytes : List UInt8} (encoded : Codecs.encode name text = .ok bytes) :
    ∃ s : String, text = s ∧ c.encode s.toList = .ok bytes := by
  cases text with
  | sound s => exact ⟨s, rfl, (stands.encode_eq s).symm.trans encoded⟩
  | torn t =>
      obtain ⟨fault, failed⟩ := stands.encode_torn t
      cases failed.symm.trans encoded

/-- With a text, each of the character sets can also write the text as a line. -/
theorem canPut_whole {c : Charset} (stands : Codecs.StandsFor w.charset c) {piece : Piece}
    (can : w.CanPut piece.content) : w.CanPut piece.whole := by
  cases piece with
  | text s => exact can
  | line s =>
      have newline : Charset.Ascii "\n".toList := by decide +kernel
      obtain ⟨bytes, encoded⟩ := can
      obtain ⟨s, rfl, soundEncoded⟩ := exists_sound_of_encode stands encoded
      have had := c.exists_encode_iff.mp ⟨bytes, soundEncoded⟩
      change ∃ bytes, Codecs.encode w.charset (.sound (s ++ "\n")) = .ok bytes
      rw [stands.encode_eq, c.exists_encode_iff]
      intro char mem
      rcases mem_toList_append.mp mem with inside | last
      · exact had char inside
      · exact c.has_of_ascii (newline char last)

/-- Pieces that can be written are all on the stream, one behind the other. -/
theorem perform_pieces (can : ∀ piece ∈ pieces, w.CanPut piece.whole) (before : RunState)
    (nothingHeld : (before.console.stream w.outlet).held = []) :
    ∃ parts after,
      List.Forall₂ (fun piece bytes => Codecs.encode w.charset piece.whole = .ok bytes) pieces parts ∧
      (pieces.forM (Piece.write w)).perform before = (.ok (), after) ∧
      (after.console.stream w.outlet).sent = (before.console.stream w.outlet).sent ++ parts.flatten ∧
      (after.console.stream w.outlet).held = [] := by
  induction pieces generalizing before with
  | nil => exact ⟨[], before, .nil, rfl, (List.append_nil _).symm, nothingHeld⟩
  | cons piece rest ih =>
      obtain ⟨bytes, encoded⟩ := can piece List.mem_cons_self
      have sent := Console.sent_send before.console w.outlet bytes
      have first := perform_put_of_encode encoded before
      rw [← Piece.write_eq] at first
      generalize before.console.send w.outlet bytes = console at sent first
      obtain ⟨parts, after, others, written, sentEq, heldEq⟩ :=
        ih (fun other mem => can other (List.mem_cons_of_mem piece mem)) { before with console } sent.held
      refine ⟨bytes :: parts, after, .cons encoded others, ?_, ?_, heldEq⟩
      · exact Action.perform_bind_eq_ok_iff.mpr ⟨(), _, first, written⟩
      · rw [sentEq, sent.sent, nothingHeld, List.append_nil, List.append_assoc, List.flatten_cons]

/-- Where texts are joined, the bytes of texts one behind the other are those of one text. -/
theorem encode_concat {name : String} (joins : Codecs.Joins name) (known : Codecs.Knows name)
    {texts : List WideText} {parts : List (List UInt8)}
    (encoded : List.Forall₂ (fun text bytes => Codecs.encode name text = .ok bytes) texts parts) :
    Codecs.encode name (.concat texts) = .ok parts.flatten := by
  induction encoded with
  | nil => exact joins.encode_empty known
  | cons first _ ih => exact joins _ _ _ _ first ih

/-- Under the name of one of the character sets, the bytes of texts one behind the other are decoded to the
texts, with what the character set puts in front of each but the first. -/
theorem decode?_of_stands {name : String} {c : Charset} (stands : Codecs.StandsFor name c)
    {texts : List WideText} {parts : List (List UInt8)}
    (encoded : List.Forall₂ (fun text bytes => Codecs.encode name text = .ok bytes) texts parts) :
    ∃ sounds : List String, texts = sounds.map .sound ∧
      c.decode? parts.flatten = some (c.opening.intercalate (sounds.map String.toList)) := by
  have sound : ∃ sounds : List String, texts = sounds.map .sound ∧
      List.Forall₂ (fun text bytes => c.encode text = .ok bytes) (sounds.map String.toList) parts := by
    induction encoded with
    | nil => exact ⟨[], rfl, .nil⟩
    | cons first _ ih =>
        obtain ⟨s, rfl, firstEncoded⟩ := exists_sound_of_encode stands first
        obtain ⟨sounds, rfl, others⟩ := ih
        exact ⟨s :: sounds, rfl, .cons firstEncoded others⟩
  obtain ⟨sounds, textsEq, soundEncoded⟩ := sound
  exact ⟨sounds, textsEq, Charset.decode?_flatten soundEncoded⟩

/-- Where settings are accepted, with any library, texts that can all be written are written, to a fresh stream
in one run of bytes: those of the texts, one behind the other.  If the library joins texts under the name of
the character set, these are the bytes of all that was written.  If the name stands for one of the character
sets here, a text can be written as a line if it can be written at all, and the bytes are decoded at once to
the texts, with what the character set puts in front of each but the first; this is all that was written
exactly if that is nothing, or if at most one text was written. -/
theorem decode_of_writes {value : Yaml.Value} {settings : Settings}
    (accepted : Settings.ofValue value = .ok settings) (named : w.charset = settings.charset)
    (can : ∀ piece ∈ pieces, w.CanPut piece.content) {before : RunState}
    (fresh : before.console.stream w.outlet = {}) :
    (∀ c, Codecs.StandsFor settings.charset c → ∀ piece ∈ pieces, w.CanPut piece.whole) ∧
      ((∀ piece ∈ pieces, w.CanPut piece.whole) → ∃ parts after,
        List.Forall₂ (fun piece bytes => Codecs.encode settings.charset piece.whole = .ok bytes) pieces
          parts ∧
        (pieces.forM (Piece.write w)).perform before = (.ok (), after) ∧
        after.console.stream w.outlet = { sent := parts.flatten } ∧
        (Codecs.Joins settings.charset →
          Codecs.encode settings.charset (.concat (pieces.map Piece.whole)) = .ok parts.flatten) ∧
        ∀ c, Codecs.StandsFor settings.charset c → ∃ texts : List String,
          pieces.map Piece.whole = texts.map .sound ∧
          c.decode? parts.flatten = some (c.opening.intercalate (texts.map String.toList)) ∧
          (c.decode? parts.flatten = some (texts.flatMap String.toList) ↔
            c.opening = [] ∨ pieces.length ≤ 1)) := by
  refine ⟨fun c stands piece mem => canPut_whole (named ▸ stands) (can piece mem), fun canWhole => ?_⟩
  have known := (Settings.checked_of_ofValue accepted).known
  have nothingHeld : (before.console.stream w.outlet).held = [] := congrArg Stream.held fresh
  obtain ⟨parts, after, encodes, written, sent, held⟩ := perform_pieces canWhole before nothingHeld
  rw [fresh] at sent
  rw [named] at encodes
  have encoded : List.Forall₂ (fun text bytes => Codecs.encode settings.charset text = .ok bytes)
      (pieces.map Piece.whole) parts := List.forall₂_map_left_iff.mpr encodes
  refine ⟨parts, after, encodes, written, congrArg₂ Stream.mk sent held,
    fun joins => encode_concat joins known encoded, fun c stands => ?_⟩
  obtain ⟨texts, textsEq, decoded⟩ := decode?_of_stands stands encoded
  refine ⟨texts, textsEq, decoded, ?_⟩
  have lengths := congrArg List.length textsEq
  rw [List.length_map, List.length_map] at lengths
  rw [decoded, Option.some.injEq, List.flatMap_def, intercalate_eq_flatten_iff, List.length_map, lengths]

end Codecs

/-- The settings that name a character set and nothing else. -/
def settingsFor (charset : String) : Yaml.Value :=
  .mapping [(.text "encoding", .text charset)]

/-- A run that has written nothing yet. -/
def silentRun : RunState where
  disk := { root := .empty, here := [] }

/-- In Windows-1252, a line, an empty text and a text with a character that only its own block has are read
back as they were written. -/
theorem decode_of_writes_windows1252 :
    let pieces : List Piece := [.line "caf\u00E9", .text "", .text "5 \u20AC"]
    Settings.ofValue (settingsFor "cp1252") = .ok { charset := "cp1252" } ∧
      (∀ piece ∈ pieces, (out "cp1252").CanPut piece.content) ∧
      silentRun.console.stream .out = {} ∧
      ∃ bytes after, (pieces.forM (Piece.write (out "cp1252"))).perform silentRun = (.ok (), after) ∧
        after.console.stream .out = { sent := bytes } ∧
        (Charset.bytewise .windows1252).decode? bytes = some "caf\u00E9\n5 \u20AC".toList := by
  intro pieces
  have accepted : Settings.ofValue (settingsFor "cp1252") = .ok { charset := "cp1252" } := by
    decide +kernel
  have stands : Codecs.StandsFor "cp1252" (.bytewise .windows1252) :=
    Codecs.standsFor_of_meaning (by decide +kernel)
  have line : (out "cp1252").CanPut "caf\u00E9" := ⟨[0x63, 0x61, 0x66, 0xE9], by decide +kernel⟩
  have empty : (out "cp1252").CanPut "" := ⟨[], by decide +kernel⟩
  have price : (out "cp1252").CanPut "5 \u20AC" := ⟨[0x35, 0x20, 0x80], by decide +kernel⟩
  have can : ∀ piece ∈ pieces, (out "cp1252").CanPut piece.content :=
    List.forall_mem_cons.mpr ⟨line, List.forall_mem_cons.mpr ⟨empty, List.forall_mem_singleton.mpr price⟩⟩
  have fresh : silentRun.console.stream .out = {} := rfl
  obtain ⟨canWhole, writes⟩ := decode_of_writes (w := out "cp1252") accepted rfl can fresh
  obtain ⟨parts, after, -, written, sent, -, decodes⟩ := writes (canWhole _ stands)
  obtain ⟨texts, textsEq, -, whole⟩ := decodes _ stands
  obtain rfl : texts = ["caf\u00E9\n", "", "5 \u20AC"] := by
    refine List.map_injective_iff.mpr (fun _ _ => WideText.sound.inj) ?_
    exact textsEq.symm
  exact ⟨accepted, can, fresh, parts.flatten, after, written, sent, whole.mpr (Or.inl rfl)⟩

/-- In UTF-16 every text is written behind a mark, and the second mark is read as a character. -/
theorem decode_ne_of_two_marks :
    let pieces : List Piece := [.text "a", .text "b"]
    Settings.ofValue (settingsFor "utf-16") = .ok { charset := "utf-16" } ∧
      Charset.meaning "utf-16" = .charset (.utf16 none) ∧
      (∀ piece ∈ pieces, (out "utf-16").CanPut piece.content) ∧
      ∃ after, (pieces.forM (Piece.write (out "utf-16"))).perform silentRun = (.ok (), after) ∧
        (Charset.utf16 none).decode? (after.console.stream .out).sent = some ['a', '\uFEFF', 'b'] ∧
        (Charset.utf16 none).decode? (after.console.stream .out).sent ≠ some ['a', 'b'] := by
  intro pieces
  have means : Charset.meaning "utf-16" = .charset (.utf16 none) := by decide +kernel
  have first : (out "utf-16").CanPut "a" := ⟨[0xFF, 0xFE, 0x61, 0x00], by decide +kernel⟩
  have second : (out "utf-16").CanPut "b" := ⟨[0xFF, 0xFE, 0x62, 0x00], by decide +kernel⟩
  have can : ∀ piece ∈ pieces, (out "utf-16").CanPut piece.content :=
    List.forall_mem_cons.mpr ⟨first, List.forall_mem_singleton.mpr second⟩
  refine ⟨by decide +kernel, means, can, _, Prod.ext (by decide +kernel) rfl, ?_, ?_⟩
  · decide +kernel
  · decide +kernel

end Writer

end StringAudit
