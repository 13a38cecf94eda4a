import StringAudit.Charset.Encode
import StringAudit.Text.Wide

/-!
# Character sets from a library

The program asks a library to write texts in the character set of a name.  `Codecs` is that library, of
which no more is supposed than that it writes UTF-8 under its usual name.  The library that the program runs
with is the register of names: it knows eleven of the character sets that others know.
-/

namespace StringAudit

/-- What writing a text in the character set of a name comes to. -/
class Codecs where
  /-- The bytes of a text under a name. -/
  encode (name : String) (text : WideText) : Except EncodeFault (List UInt8)
  /-- Every text can be written in UTF-8. -/
  encode_utf8 : ∀ text : String, encode "utf-8" text = .ok (Charset.Utf8.encode text.toList)
  /-- No torn text can be written in UTF-8. -/
  encode_utf8_torn : ∀ text : Torn, ∃ reason, encode "utf-8" (.torn text) = .error (.lost reason)

namespace Charset

/-- What is said of a surrogate in a text. -/
def surrogateNote : String :=
  "surrogates not allowed"

/-- The bytes of a wide text in the character set of the given name; none of the character sets has
surrogates. -/
def encodeWide (name : String) : WideText → Except EncodeFault (List UInt8)
  | .sound text => encodeNamed name text
  | .torn _ =>
      match encodeNamed name "" with
      | .ok _ => .error (.lost surrogateNote)
      | .error fault => .error fault

theorem meaning_utf8 : meaning "utf-8" = .charset (.utf8 false) := by
  decide +kernel

end Charset

/-- The character sets of the register. -/
instance : Codecs where
  encode := Charset.encodeWide
  encode_utf8 := fun text => by
    rw [Charset.encodeWide, Charset.encodeNamed, Charset.meaning_utf8]
    rfl
  encode_utf8_torn := fun text => by
    refine ⟨Charset.surrogateNote, ?_⟩
    rw [Charset.encodeWide, Charset.encodeNamed, Charset.meaning_utf8]
    rfl

/-- With the register, a text is written as its name means. -/
theorem Codecs.encode_eq (name text : String) :
    Codecs.encode name text = Charset.encodeNamed name text :=
  rfl

end StringAudit
