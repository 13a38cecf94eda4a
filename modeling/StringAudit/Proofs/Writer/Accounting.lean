import Mathlib.Data.List.Forall2
import StringAudit.Proofs.Delivery

/-!
# Accounting for every byte

A program uses a writer step by step.  It writes texts and lines, sends texts to the alarm stream, and writes
past the writer through the text layers of the streams, which may send on at any time what they hold back.
Each step makes one entry in the books: bytes that are sent to a stream, bytes that the text layer of a
stream holds back, or a failure.  The bytes of a stream, followed by those that its text layer still holds
back, are at any time what the entries say, in the order of the steps; a failure changes nothing.
-/

namespace StringAudit

namespace Console

variable {outlet other : Outlet} {bytes : List UInt8} {before after : Console}

/-- Bytes have been sent to one stream, behind all that was written to it before and with nothing held back;
the other streams are as they were. -/
structure Sent (outlet : Outlet) (bytes : List UInt8) (before after : Console) : Prop where
  sent : (after.stream outlet).sent = (before.stream outlet).sent ++ (before.stream outlet).held ++ bytes
  held : (after.stream outlet).held = []
  others : ∀ other, other ≠ outlet → after.stream other = before.stream other

/-- The text layer of one stream holds bytes back behind those that it held back before, and has sent
nothing; the other streams are as they were. -/
structure Held (outlet : Outlet) (bytes : List UInt8) (before after : Console) : Prop where
  sent : (after.stream outlet).sent = (before.stream outlet).sent
  held : (after.stream outlet).held = (before.stream outlet).held ++ bytes
  others : ∀ other, other ≠ outlet → after.stream other = before.stream other

theorem stream_change_self (c : Console) (outlet : Outlet) (f : Stream → Stream) :
    (c.change outlet f).stream outlet = f (c.stream outlet) := by
  cases outlet <;> rfl

theorem stream_change_of_ne (c : Console) (f : Stream → Stream) (different : other ≠ outlet) :
    (c.change outlet f).stream other = c.stream other := by
  cases outlet <;> cases other
  all_goals first | exact absurd rfl different | rfl

theorem sent_send (c : Console) (outlet : Outlet) (bytes : List UInt8) :
    Sent outlet bytes c (c.send outlet bytes) where
  sent := congrArg Stream.sent (stream_change_self c outlet _)
  held := congrArg Stream.held (stream_change_self c outlet _)
  others := fun _ => stream_change_of_ne c _

theorem sent_flush (c : Console) (outlet : Outlet) :
    Sent outlet [] c (c.change outlet Stream.flush) where
  sent := by
    rw [stream_change_self, List.append_nil]
    rfl
  held := congrArg Stream.held (stream_change_self c outlet _)
  others := fun _ => stream_change_of_ne c _

theorem held_hold (c : Console) (outlet : Outlet) (bytes : List UInt8) :
    Held outlet bytes c (c.change outlet (·.hold bytes)) where
  sent := by
    rw [stream_change_self]
    rfl
  held := congrArg Stream.held (stream_change_self c outlet _)
  others := fun _ => stream_change_of_ne c _

/-- What is written to a stream is what has been sent, and behind it what is held back. -/
theorem written_eq (c : Console) (outlet : Outlet) :
    c.written outlet = (c.stream outlet).sent ++ (c.stream outlet).held :=
  rfl

theorem Sent.written_eq (sent : Sent outlet bytes before after) (other : Outlet) :
    after.written other = before.written other ++ if other = outlet then bytes else [] := by
  rw [Console.written_eq, Console.written_eq]
  split
  · rename_i same
    rw [same, sent.sent, sent.held, List.append_nil]
  · rename_i different
    rw [sent.others other different, List.append_nil]

theorem Held.written_eq (held : Held outlet bytes before after) (other : Outlet) :
    after.written other = before.written other ++ if other = outlet then bytes else [] := by
  rw [Console.written_eq, Console.written_eq]
  split
  · rename_i same
    rw [same, held.sent, held.held, List.append_assoc]
  · rename_i different
    rw [held.others other different, List.append_nil]

end Console

namespace Charset

/-- Under a name that cannot be looked up, nothing can be written. -/
theorem encodeNamed_of_unusable {name : String} (unusable : '\x00' ∈ name.toList) (text : String) :
    encodeNamed name text = .error .unusableName := by
  rw [encodeNamed, meaning_eq_unusable_iff.mpr unusable]

end Charset

namespace Writer

/-! ## What can be encoded -/

/-- A text has these bytes in the character set of a writer. -/
def Encodes (w : Writer) (text : String) (bytes : List UInt8) : Prop :=
  Charset.encodeNamed w.charset text = .ok bytes

instance (w : Writer) (text : String) (bytes : List UInt8) : Decidable (w.Encodes text bytes) :=
  inferInstanceAs (Decidable (_ = _))

/-- A text can be written in the character set of a writer. -/
def CanEncode (w : Writer) (text : String) : Prop :=
  ∃ bytes, w.Encodes text bytes

/-- Neither a text nor its diagnostic can be written in the character set of a writer. -/
def Loses (w : Writer) (text : String) : Prop :=
  ¬ w.CanEncode text ∧ ¬ w.CanEncode (w.diagnostic text)

/-- The failure of a writer over a text that it cannot even send to the alarm stream. -/
def loss (w : Writer) (text : String) : Failure :=
  if '\x00' ∈ w.charset.toList then .breakdown .unusableCharset
  else .unreportable ("failed to write to stderr with string: " ++ Text.quotedAscii text)

section CharacterSets

variable {w : Writer} {c : Charset} {text : String}

theorem canEncode_iff (means : Charset.meaning w.charset = .charset c) :
    w.CanEncode text ↔ ∀ char ∈ text.toList, c.Has char := by
  rw [← c.exists_encode_iff, CanEncode]
  simp only [Encodes, Charset.encodeNamed, means]

/-- A diagnostic can be written exactly if the quoted name of the character set can. -/
theorem canEncode_diagnostic_iff (means : Charset.meaning w.charset = .charset c) :
    w.CanEncode (w.diagnostic text) ↔ ∀ char ∈ (Text.quoted w.charset).toList, c.Has char := by
  rw [canEncode_iff means]
  constructor
  · intro had char mem
    apply had
    exact mem_diagnostic_iff.mpr (Or.inr (Or.inr (Or.inr (Or.inl mem))))
  · intro had char mem
    rcases ascii_or_of_mem_diagnostic mem with ascii | quoted
    · exact c.has_of_ascii ascii
    · exact had char quoted

/-- A known character set loses the texts with a character that it lacks, if it also lacks one of its own
quoted name. -/
theorem loses_iff (means : Charset.meaning w.charset = .charset c) :
    w.Loses text ↔ (∃ char ∈ text.toList, ¬ c.Has char) ∧
      ∃ char ∈ (Text.quoted w.charset).toList, ¬ c.Has char := by
  rw [Loses, canEncode_iff means, canEncode_diagnostic_iff means]
  simp only [not_forall, exists_prop]

/-- Under a name that stands for no character set, no text can be written. -/
theorem not_canEncode_of_unknown (unknown : ∀ c, Charset.meaning w.charset ≠ .charset c) (text : String) :
    ¬ w.CanEncode text := by
  rintro ⟨bytes, encodes⟩
  rw [Encodes, Charset.encodeNamed] at encodes
  split at encodes
  · rename_i c means
    exact unknown c means
  all_goals cases encodes

/-- Under a name in ASCII a text is lost exactly if the name stands for no character set. -/
theorem loses_iff_of_ascii (ascii : Charset.Ascii w.charset.toList) (text : String) :
    w.Loses text ↔ ∀ c, Charset.meaning w.charset ≠ .charset c := by
  constructor
  · intro lost c means
    obtain ⟨c', means', quotable⟩ := Sound.of_ascii means ascii
    obtain rfl : c' = c := Charset.Meaning.charset.inj (means'.symm.trans means)
    obtain ⟨char, mem, lacking⟩ := ((loses_iff means).mp lost).2
    exact lacking (quotable char mem)
  · intro unknown
    exact ⟨not_canEncode_of_unknown unknown _, not_canEncode_of_unknown unknown _⟩

end CharacterSets

/-! ## The ways of writing -/

section Ways

variable {w : Writer} {text : String} {bytes : List UInt8}

theorem perform_write_of_encodes (encodes : w.Encodes text bytes) (before : RunState) :
    (w.write text).perform before =
      (.ok (), { before with console := before.console.send w.outlet bytes }) := by
  have encoded : Codecs.encode w.charset text = .ok bytes := encodes
  exact perform_put_of_encode encoded before

theorem perform_warn_of_encodes (encodes : w.Encodes text bytes) (before : RunState) :
    (w.warn text).perform before =
      (.ok (), { before with console := before.console.send w.alarm bytes }) := by
  rw [warn, Codecs.encode_eq, encodes]
  rfl

theorem perform_warn_of_lost (lost : ¬ w.CanEncode text) (before : RunState) :
    (w.warn text).perform before = (.error (w.loss text), before) := by
  by_cases unusable : '\x00' ∈ w.charset.toList
  · rw [warn, Codecs.encode_eq, Charset.encodeNamed_of_unusable unusable, loss, if_pos unusable]
    rfl
  · rw [warn, loss, if_neg unusable, Codecs.encode_eq]
    split
    · rename_i bytes encodes
      exact absurd ⟨bytes, encodes⟩ lost
    · rename_i failed
      exact absurd failed (Charset.encodeNamed_ne_unusableName unusable)
    · rfl

/-- A text that cannot be written is passed on as its diagnostic. -/
theorem perform_write_of_lost (lost : ¬ w.CanEncode text) (before : RunState) :
    (w.write text).perform before = (w.warn (w.diagnostic text)).perform before := by
  by_cases unusable : '\x00' ∈ w.charset.toList
  · rw [write, put, warn, Codecs.encode_eq, Codecs.encode_eq, Charset.encodeNamed_of_unusable unusable,
      Charset.encodeNamed_of_unusable unusable]
  · rw [write, put, Codecs.encode_eq]
    split
    · rename_i bytes encodes
      exact absurd ⟨bytes, encodes⟩ lost
    · rename_i failed
      exact absurd failed (Charset.encodeNamed_ne_unusableName unusable)
    · rfl

end Ways

/-! ## Steps and their entries -/

/-- A step of a program that uses a writer. -/
inductive Step
  | write (text : String)
  | writeLine (line : String)
  /-- Send a text to the alarm stream. -/
  | warn (text : String)
  /-- Write a text through the text layer of a stream. -/
  | hold (outlet : Outlet) (text : String)
  /-- The text layer of a stream sends what it holds back. -/
  | flush (outlet : Outlet)
  deriving DecidableEq, Repr

/-- What a step does; `layer` gives the bytes that the text layer of a stream makes of a text. -/
def Step.action (w : Writer) (layer : Outlet → String → List UInt8) : Step → Action Unit
  | write text => w.write text
  | writeLine line => w.writeLine line
  | warn text => w.warn text
  | hold outlet text => Action.onStream outlet (·.hold (layer outlet text))
  | flush outlet => Action.onStream outlet Stream.flush

/-- Take steps one after the other, whatever becomes of them: their outcomes, and the state in the end. -/
def play (w : Writer) (layer : Outlet → String → List UInt8) :
    List Step → RunState → List (Except Failure Unit) × RunState
  | [], state => ([], state)
  | step :: rest, state =>
      let (outcome, between) := (step.action w layer).perform state
      let (outcomes, after) := play w layer rest between
      (outcome :: outcomes, after)

/-- An entry in the books. -/
inductive Entry
  /-- Bytes are sent to a stream. -/
  | sent (outlet : Outlet) (bytes : List UInt8)
  /-- Bytes are held back by the text layer of a stream. -/
  | held (outlet : Outlet) (bytes : List UInt8)
  | failed (failure : Failure)
  deriving DecidableEq, Repr

namespace Entry

/-- The outcome of a step with an entry. -/
def outcome : Entry → Except Failure Unit
  | sent _ _ => .ok ()
  | held _ _ => .ok ()
  | failed failure => .error failure

/-- The bytes of an entry that are written to a stream. -/
def share (outlet : Outlet) : Entry → List UInt8
  | sent other bytes => if outlet = other then bytes else []
  | held other bytes => if outlet = other then bytes else []
  | failed _ => []

/-- What an entry records of the states in front of a step and behind it. -/
def Records : Entry → RunState → RunState → Prop
  | sent outlet bytes, before, after =>
      after.disk = before.disk ∧ Console.Sent outlet bytes before.console after.console
  | held outlet bytes, before, after =>
      after.disk = before.disk ∧ Console.Held outlet bytes before.console after.console
  | failed _, before, after => after = before

variable {entry : Entry} {before after : RunState}

theorem Records.disk_eq (records : entry.Records before after) : after.disk = before.disk := by
  cases entry with
  | sent => exact records.1
  | held => exact records.1
  | failed => exact congrArg RunState.disk records

theorem Records.written_eq (records : entry.Records before after) (outlet : Outlet) :
    after.console.written outlet = before.console.written outlet ++ entry.share outlet := by
  cases entry with
  | sent => exact records.2.written_eq outlet
  | held => exact records.2.written_eq outlet
  | failed =>
      obtain rfl : after = before := records
      exact (List.append_nil _).symm

end Entry

/-- The entry of a step.  A text that can be written is sent to the stream.  For one that cannot, a diagnostic
is sent to the alarm stream, and if even that cannot be written the step fails. -/
inductive Step.Books (w : Writer) (layer : Outlet → String → List UInt8) : Step → Entry → Prop
  | written {text : String} {bytes : List UInt8} (encodes : w.Encodes text bytes) :
      Books w layer (.write text) (.sent w.outlet bytes)
  | reported {text : String} {bytes : List UInt8} (lost : ¬ w.CanEncode text)
      (encodes : w.Encodes (w.diagnostic text) bytes) :
      Books w layer (.write text) (.sent w.alarm bytes)
  | lost {text : String} (lost : w.Loses text) :
      Books w layer (.write text) (.failed (w.loss (w.diagnostic text)))
  | line {line : String} {entry : Entry} (books : Books w layer (.write (line ++ "\n")) entry) :
      Books w layer (.writeLine line) entry
  | warned {text : String} {bytes : List UInt8} (encodes : w.Encodes text bytes) :
      Books w layer (.warn text) (.sent w.alarm bytes)
  | unwarned {text : String} (lost : ¬ w.CanEncode text) :
      Books w layer (.warn text) (.failed (w.loss text))
  | held (outlet : Outlet) (text : String) :
      Books w layer (.hold outlet text) (.held outlet (layer outlet text))
  | flushed (outlet : Outlet) : Books w layer (.flush outlet) (.sent outlet [])

section Books

variable {w : Writer} {layer : Outlet → String → List UInt8}

/-- Every step has an entry. -/
theorem exists_books (w : Writer) (layer : Outlet → String → List UInt8) (step : Step) :
    ∃ entry, step.Books w layer entry := by
  have written : ∀ text, ∃ entry, (Step.write text).Books w layer entry := by
    intro text
    by_cases can : w.CanEncode text
    · obtain ⟨bytes, encodes⟩ := can
      exact ⟨_, .written encodes⟩
    by_cases told : w.CanEncode (w.diagnostic text)
    · obtain ⟨bytes, encodes⟩ := told
      exact ⟨_, .reported can encodes⟩
    · exact ⟨_, .lost ⟨can, told⟩⟩
  cases step with
  | write text => exact written text
  | writeLine line =>
      obtain ⟨entry, books⟩ := written (line ++ "\n")
      exact ⟨entry, .line books⟩
  | warn text =>
      by_cases can : w.CanEncode text
      · obtain ⟨bytes, encodes⟩ := can
        exact ⟨_, .warned encodes⟩
      · exact ⟨_, .unwarned can⟩
  | hold outlet text => exact ⟨_, .held outlet text⟩
  | flush outlet => exact ⟨_, .flushed outlet⟩

theorem exists_entries (w : Writer) (layer : Outlet → String → List UInt8) (steps : List Step) :
    ∃ entries, List.Forall₂ (Step.Books w layer) steps entries := by
  induction steps with
  | nil => exact ⟨[], .nil⟩
  | cons step rest ih =>
      obtain ⟨entry, first⟩ := exists_books w layer step
      obtain ⟨entries, others⟩ := ih
      exact ⟨entry :: entries, .cons first others⟩

/-- A step does what its entry records, whatever was written before. -/
theorem perform_of_books {step : Step} {entry : Entry} (books : step.Books w layer entry)
    (before : RunState) :
    ∃ after, (step.action w layer).perform before = (entry.outcome, after) ∧ entry.Records before after := by
  induction books with
  | written encodes => exact ⟨_, perform_write_of_encodes encodes before, rfl, Console.sent_send _ _ _⟩
  | reported lost encodes =>
      have performed := perform_write_of_lost lost before
      rw [perform_warn_of_encodes encodes] at performed
      exact ⟨_, performed, rfl, Console.sent_send _ _ _⟩
  | lost lost =>
      have performed := perform_write_of_lost lost.1 before
      rw [perform_warn_of_lost lost.2] at performed
      exact ⟨before, performed, rfl⟩
  | line books ih => exact ih
  | warned encodes => exact ⟨_, perform_warn_of_encodes encodes before, rfl, Console.sent_send _ _ _⟩
  | unwarned lost => exact ⟨before, perform_warn_of_lost lost before, rfl⟩
  | held outlet text => exact ⟨_, rfl, rfl, Console.held_hold _ _ _⟩
  | flushed outlet => exact ⟨_, rfl, rfl, Console.sent_flush _ _⟩

/-- A step has one entry only. -/
theorem Step.Books.unique {step : Step} {entry other : Entry} (books : step.Books w layer entry)
    (again : step.Books w layer other) : entry = other := by
  induction books generalizing other with
  | written encodes =>
      cases again with
      | written encodes' => rw [Except.ok.inj (encodes.symm.trans encodes')]
      | reported lost => exact absurd ⟨_, encodes⟩ lost
      | lost lost => exact absurd ⟨_, encodes⟩ lost.1
  | reported lost encodes =>
      cases again with
      | written encodes' => exact absurd ⟨_, encodes'⟩ lost
      | reported _ encodes' => rw [Except.ok.inj (encodes.symm.trans encodes')]
      | lost lost' => exact absurd ⟨_, encodes⟩ lost'.2
  | lost lost =>
      cases again with
      | written encodes' => exact absurd ⟨_, encodes'⟩ lost.1
      | reported _ encodes' => exact absurd ⟨_, encodes'⟩ lost.2
      | lost => rfl
  | line books ih =>
      cases again with
      | line books' => exact ih books'
  | warned encodes =>
      cases again with
      | warned encodes' => rw [Except.ok.inj (encodes.symm.trans encodes')]
      | unwarned lost => exact absurd ⟨_, encodes⟩ lost
  | unwarned lost =>
      cases again with
      | warned encodes' => exact absurd ⟨_, encodes'⟩ lost
      | unwarned => rfl
  | held outlet text =>
      cases again with
      | held => rfl
  | flushed outlet =>
      cases again with
      | flushed => rfl

/-- The entries of a run account for its outcomes and for all that was written. -/
theorem play_of_books {steps : List Step} {entries : List Entry}
    (books : List.Forall₂ (Step.Books w layer) steps entries) (before : RunState) :
    ∃ after, play w layer steps before = (entries.map Entry.outcome, after) ∧
      after.disk = before.disk ∧ ∀ outlet, after.console.written outlet =
        before.console.written outlet ++ entries.flatMap (Entry.share outlet) := by
  induction books generalizing before with
  | nil => exact ⟨before, rfl, rfl, fun _ => (List.append_nil _).symm⟩
  | cons first _ ih =>
      obtain ⟨between, performed, records⟩ := perform_of_books first before
      obtain ⟨after, played, sameDisk, accounted⟩ := ih between
      refine ⟨after, ?_, sameDisk.trans records.disk_eq, fun outlet => ?_⟩
      · rw [play, performed]
        simp only [played, List.map_cons]
      · rw [accounted, records.written_eq, List.flatMap_cons, List.append_assoc]

end Books

/-- The books balance.  Every step has exactly one entry, and does what that entry records in every state: bytes
are sent behind all that was written before, or held back, or it fails and changes nothing.  After any steps,
the bytes of every stream and those that its text layer still holds back are those of the entries, in their
order.  A known character set loses a text exactly if it lacks a character of the text and one of its own quoted
name, and a name that stands for none can write nothing; so under a name in ASCII, texts are lost exactly if
the name stands for no character set. -/
theorem books_balance (w : Writer) (layer : Outlet → String → List UInt8) :
    (∀ step : Step, ∃! entry, step.Books w layer entry) ∧
    (∀ (step : Step) (entry : Entry), step.Books w layer entry → ∀ before : RunState,
      ∃ after, (step.action w layer).perform before = (entry.outcome, after) ∧
        entry.Records before after) ∧
    (∀ (steps : List Step) (before : RunState), ∃ entries after,
      List.Forall₂ (Step.Books w layer) steps entries ∧
      play w layer steps before = (entries.map Entry.outcome, after) ∧ after.disk = before.disk ∧
      ∀ outlet, (after.console.stream outlet).sent ++ (after.console.stream outlet).held =
        (before.console.stream outlet).sent ++ (before.console.stream outlet).held ++
          entries.flatMap (Entry.share outlet)) ∧
    (∀ c, Charset.meaning w.charset = .charset c → ∀ text, w.Loses text ↔
      (∃ char ∈ text.toList, ¬ c.Has char) ∧ ∃ char ∈ (Text.quoted w.charset).toList, ¬ c.Has char) ∧
    ((∀ c, Charset.meaning w.charset ≠ .charset c) → ∀ text, ¬ w.CanEncode text) ∧
    (Charset.Ascii w.charset.toList → ∀ text,
      w.Loses text ↔ ∀ c, Charset.meaning w.charset ≠ .charset c) := by
  refine ⟨?_, ?_, ?_, ?_, ?_, ?_⟩
  · intro step
    obtain ⟨entry, books⟩ := exists_books w layer step
    exact ⟨entry, books, fun other again => again.unique books⟩
  · intro step entry books before
    exact perform_of_books books before
  · intro steps before
    obtain ⟨entries, books⟩ := exists_entries w layer steps
    obtain ⟨after, played, sameDisk, accounted⟩ := play_of_books books before
    exact ⟨entries, after, books, played, sameDisk, accounted⟩
  · intro c means text
    exact loses_iff means
  · intro unknown text
    exact not_canEncode_of_unknown unknown text
  · intro ascii text
    exact loses_iff_of_ascii ascii text

/-- Under a name with U+0000 a text is lost, but the failure is not the one over a text that could not be
reported: looking the name up breaks down. -/
theorem loss_not_unreportable :
    let w : Writer := ⟨"utf-8\x00", .out, .err⟩
    w.Loses "a" ∧ ∀ before : RunState,
      (w.write "a").perform before = (.error (.breakdown .unusableCharset), before) ∧
        ∀ told, ((w.write "a").perform before).1 ≠ .error (.unreportable told) := by
  intro w
  have unusable : '\x00' ∈ w.charset.toList := by decide +kernel
  have unknown : ∀ c, Charset.meaning w.charset ≠ .charset c := by
    intro c means
    exact Charset.usable_of_meaning means unusable
  have lost : w.Loses "a" := ⟨not_canEncode_of_unknown unknown _, not_canEncode_of_unknown unknown _⟩
  refine ⟨lost, fun before => ?_⟩
  have performed : (w.write "a").perform before = (.error (.breakdown .unusableCharset), before) := by
    rw [perform_write_of_lost lost.1, perform_warn_of_lost lost.2, loss, if_pos unusable]
  rw [performed]
  refine ⟨rfl, fun told => ?_⟩
  rintro ⟨⟩

end Writer

end StringAudit
