import StringAudit.Charset.Basic

/-!
# UTF-32

Every character takes four bytes, which are its code point.
-/

namespace StringAudit.Charset.Utf32

/-- The four bytes of a number. -/
def wordBytes : ByteOrder → Nat → List UInt8
  | .littleEndian, n =>
      [(n % 0x100).toUInt8, (n / 0x100 % 0x100).toUInt8, (n / 0x10000 % 0x100).toUInt8,
        (n / 0x1000000).toUInt8]
  | .bigEndian, n =>
      [(n / 0x1000000).toUInt8, (n / 0x10000 % 0x100).toUInt8, (n / 0x100 % 0x100).toUInt8,
        (n % 0x100).toUInt8]

/-- The bytes of a text. -/
def encode (order : ByteOrder) (text : List Char) : List UInt8 :=
  text.flatMap fun c => wordBytes order c.toNat

/-- The byte order mark. -/
def signature (order : ByteOrder) : List UInt8 :=
  wordBytes order 0xFEFF

end StringAudit.Charset.Utf32
