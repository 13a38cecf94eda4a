import StringAudit.Action
import StringAudit.Charset.Codecs

/-!
# Writing to a stream

A writer writes texts to a stream in one character set.  Each text is encoded on its own.  A text that
the character set lacks is not dropped in silence: a diagnostic that quotes it in ASCII goes to the alarm
stream, in the same character set, and if even that cannot be written the action fails.
-/

namespace StringAudit

/-- A stream, the stream for its diagnostics, and the name of the character set of both. -/
structure Writer where
  charset : String
  outlet : Outlet
  alarm : Outlet
  deriving DecidableEq, Repr

namespace Writer

/-- The writer of standard output. -/
def out (charset : String) : Writer :=
  ⟨charset, .out, .err⟩

/-- The writer of standard error. -/
def err (charset : String) : Writer :=
  ⟨charset, .err, .err⟩

/-- What is said of a text that could not be written. -/
def diagnostic (w : Writer) (text : WideText) : String :=
  "Failed to convert string: " ++ text.quotedAscii ++ " to bytes using encoding: " ++
    Text.quoted w.charset ++ "\n"

variable [Codecs]

/-- Write a text to the alarm stream. -/
def warn (w : Writer) (text : String) : Action Unit :=
  match Codecs.encode w.charset text with
  | .ok bytes => Action.onStream w.alarm (·.send bytes)
  | .error .unusableName => throw (.breakdown .unusableCharset)
  | .error _ => throw (.unreportable ("failed to write to stderr with string: " ++ Text.quotedAscii text))

/-- Write a text, which may be torn. -/
def put (w : Writer) (text : WideText) : Action Unit :=
  match Codecs.encode w.charset text with
  | .ok bytes => Action.onStream w.outlet (·.send bytes)
  | .error .unusableName => throw (.breakdown .unusableCharset)
  | .error _ => w.warn (w.diagnostic text)

/-- Write a line, which may be torn. -/
def putLine (w : Writer) (line : WideText) : Action Unit :=
  w.put (line ++ "\n")

/-- Write a text. -/
def write (w : Writer) (text : String) : Action Unit :=
  w.put text

/-- Write a line. -/
def writeLine (w : Writer) (line : String) : Action Unit :=
  w.write (line ++ "\n")

/-- Write a line if there is a writer. -/
def announce (writer : Option Writer) (line : String) : Action Unit :=
  match writer with
  | some w => w.writeLine line
  | none => pure ()

end Writer

end StringAudit
