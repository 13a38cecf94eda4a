import StringAudit.Charset.Fault

/-!
# UTF-16

A character up to U+FFFF is one unit of two bytes, any other a high surrogate followed by a low one.  The
decoder goes through the bytes unit by unit and remembers a high surrogate that still lacks its partner.
-/

namespace StringAudit.Charset.Utf16

/-- The two bytes of a unit. -/
def unitBytes : ByteOrder → Nat → List UInt8
  | .littleEndian, u => [(u % 0x100).toUInt8, (u / 0x100).toUInt8]
  | .bigEndian, u => [(u / 0x100).toUInt8, (u % 0x100).toUInt8]

/-- The units of a character. -/
def units (c : Char) : List Nat :=
  let n := c.toNat
  if n < 0x10000 then [n]
  else [0xD800 + (n - 0x10000) / 0x400, 0xDC00 + (n - 0x10000) % 0x400]

/-- The bytes of a text. -/
def encode (order : ByteOrder) (text : List Char) : List UInt8 :=
  text.flatMap fun c => (units c).flatMap (unitBytes order)

/-- The byte order mark. -/
def signature (order : ByteOrder) : List UInt8 :=
  unitBytes order 0xFEFF

/-- The unit of two bytes. -/
def unit (order : ByteOrder) (a b : UInt8) : Nat :=
  match order with
  | .littleEndian => a.toNat + 0x100 * b.toNat
  | .bigEndian => 0x100 * a.toNat + b.toNat

/-- A unit that must be followed by a low surrogate. -/
def isHigh (u : Nat) : Bool :=
  0xD800 ≤ u && u < 0xDC00

/-- A unit that must follow a high surrogate. -/
def isLow (u : Nat) : Bool :=
  0xDC00 ≤ u && u < 0xE000

/-- The name of UTF-16 in one byte order. -/
def codecName : ByteOrder → String
  | .littleEndian => "utf-16-le"
  | .bigEndian => "utf-16-be"

/-- A fault at the bytes from `start` up to, not including, `stop`. -/
def fault (order : ByteOrder) (lead : UInt8) (start stop : Nat) (flaw : DecodeFault.Flaw) :
    DecodeFault :=
  { codec := codecName order, lead, start, stop, flaw }

/-- The characters of the bytes from position `here` on; `high` is a high surrogate that stands in front
of them, with its first byte. -/
def decodeFrom (order : ByteOrder) :
    Option (UInt8 × Nat) → Nat → List UInt8 → Except DecodeFault (List Char)
  | none, _, [] => .ok []
  | none, here, [a] => .error (fault order a here (here + 1) .truncated)
  | some (lead, _), here, [] => .error (fault order lead (here - 2) here .unexpectedEnd)
  | some (lead, _), here, [_] => .error (fault order lead (here - 2) (here + 1) .unexpectedEnd)
  | none, here, a :: b :: rest =>
      let u := unit order a b
      if isHigh u then decodeFrom order (some (a, u)) (here + 2) rest
      else if isLow u then .error (fault order a here (here + 2) .illegalEncoding)
      else (Char.ofNat u :: ·) <$> decodeFrom order none (here + 2) rest
  | some (lead, high), here, a :: b :: rest =>
      let u := unit order a b
      if isLow u then
        (Char.ofNat (0x10000 + (high - 0xD800) * 0x400 + (u - 0xDC00)) :: ·) <$>
          decodeFrom order none (here + 2) rest
      else .error (fault order lead (here - 2) here .illegalSurrogate)

/-- The characters of bytes of which the first stands at position `here`. -/
def decode (order : ByteOrder) (here : Nat) (bytes : List UInt8) : Except DecodeFault (List Char) :=
  decodeFrom order none here bytes

end StringAudit.Charset.Utf16
