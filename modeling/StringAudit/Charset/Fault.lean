import StringAudit.Charset.Basic
import StringAudit.Text.Quoted

/-!
# Faults of encoding and decoding

Why a text has no bytes in a character set, and why a sequence of bytes is no text.  A fault of encoding
names the first run of characters that the character set lacks, a fault of decoding the first bytes that
are no character; both count positions from zero and give the last position of a run, not the one after
it.
-/

namespace StringAudit

/-- Why a text cannot be written under the name of a character set. -/
inductive EncodeFault
  /-- The name is not known. -/
  | unknownName (name : String)
  /-- The name stands for a transformation that is no character set. -/
  | notCharset (name : String)
  /-- The name cannot be looked up. -/
  | unusableName
  /-- The character set lacks the characters from position `start` up to, not including, `stop`. -/
  | unencodable (set : Bytewise) (first : Char) (start stop : Nat)
  /-- The text cannot be written for another reason, which a message gives. -/
  | lost (reason : String)
  deriving DecidableEq, Repr

namespace EncodeFault

/-- The name by which a message calls a character set. -/
def codecName : Bytewise → String
  | .ascii => "ascii"
  | .latin1 => "latin-1"
  | .windows1252 => "charmap"

/-- What a message says of a character that a character set lacks. -/
def reason : Bytewise → String
  | .ascii => "ordinal not in range(128)"
  | .latin1 => "ordinal not in range(256)"
  | .windows1252 => "character maps to <undefined>"

/-- The longest part of a name that a message repeats, counted in characters. -/
def shownLength : Nat :=
  400

/-- The message of a fault. -/
def message : EncodeFault → String
  | unknownName name => "unknown encoding: " ++ name
  | notCharset name =>
      "'" ++ String.ofList (name.toList.take shownLength) ++
        "' is not a text encoding; use codecs.encode() to handle arbitrary codecs"
  | unusableName => "embedded null character"
  | unencodable set first start stop =>
      let what :=
        if stop = start + 1 then
          "character '" ++ String.ofList (Text.codePointEscape first) ++ "' in position " ++ toString start
        else
          "characters in position " ++ toString start ++ "-" ++ toString (stop - 1)
      "'" ++ codecName set ++ "' codec can't encode " ++ what ++ ": " ++ reason set
  | lost reason => reason

end EncodeFault

/-- The kinds of byte sequences that are no characters. -/
inductive DecodeFault.Flaw
  | invalidStart
  | invalidContinuation
  | unexpectedEnd
  | truncated
  | illegalEncoding
  | illegalSurrogate
  deriving DecidableEq, Repr

/-- The words of a message for a flaw. -/
def DecodeFault.Flaw.reason : DecodeFault.Flaw → String
  | invalidStart => "invalid start byte"
  | invalidContinuation => "invalid continuation byte"
  | unexpectedEnd => "unexpected end of data"
  | truncated => "truncated data"
  | illegalEncoding => "illegal encoding"
  | illegalSurrogate => "illegal UTF-16 surrogate"

/-- Why bytes are no text: those from position `start` up to, not including, `stop`, of which `lead` is
the first, are no character. -/
structure DecodeFault where
  codec : String
  lead : UInt8
  start : Nat
  stop : Nat
  flaw : DecodeFault.Flaw
  deriving DecidableEq, Repr

/-- The message of a fault. -/
def DecodeFault.message (f : DecodeFault) : String :=
  let what :=
    if f.stop = f.start + 1 then
      "byte 0x" ++ String.ofList (Text.hexadecimal 2 f.lead.toNat) ++ " in position " ++ toString f.start
    else
      "bytes in position " ++ toString f.start ++ "-" ++ toString (f.stop - 1)
  "'" ++ f.codec ++ "' codec can't decode " ++ what ++ ": " ++ f.flaw.reason

end StringAudit
