import StringAudit.Charset.Bytewise
import StringAudit.Charset.Name
import StringAudit.Charset.Utf8
import StringAudit.Charset.Utf16
import StringAudit.Charset.Utf32

/-!
# Writing a text as bytes

`Charset.encode` writes a text in a character set, with the mark in front that the character set calls
for, also when the text is empty.  `encodeNamed` first looks the character set up by its name.
-/

namespace StringAudit.Charset

/-- The bytes of a text. -/
def encode : Charset → List Char → Except EncodeFault (List UInt8)
  | bytewise set, text => set.encode text
  | utf8 false, text => .ok (Utf8.encode text)
  | utf8 true, text => .ok (Utf8.signature ++ Utf8.encode text)
  | utf16 (some order), text => .ok (Utf16.encode order text)
  | utf16 none, text => .ok (Utf16.signature .littleEndian ++ Utf16.encode .littleEndian text)
  | utf32 (some order), text => .ok (Utf32.encode order text)
  | utf32 none, text => .ok (Utf32.signature .littleEndian ++ Utf32.encode .littleEndian text)

/-- The bytes of a text in the character set of the given name. -/
def encodeNamed (name : String) (text : String) : Except EncodeFault (List UInt8) :=
  match meaning name with
  | .charset c => encode c text.toList
  | .transformation => .error (.notCharset name)
  | .undefined =>
      .error (.lost ("encoding with '" ++ name ++ "' codec failed (UnicodeError: undefined encoding)"))
  | .unknown => .error (.unknownName name)
  | .unusable => .error .unusableName

end StringAudit.Charset
