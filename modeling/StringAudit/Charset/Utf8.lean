import StringAudit.Charset.Fault

/-!
# UTF-8

A character takes one to four bytes.  The first byte tells how many follow, and for some first bytes the
second one has a narrower range, so that no character has two forms, the surrogates have none, and none
lies beyond U+10FFFF.

The decoder goes through the bytes one by one.  Between two bytes of a character it knows the bits read
so far and the ranges of the bytes still due.  It stops at the first byte that fits nowhere and names the
longest beginning of a character in front of it.
-/

namespace StringAudit.Charset.Utf8

/-- The bytes of a character. -/
def encodeChar (c : Char) : List UInt8 :=
  let n := c.toNat
  if n < 0x80 then [n.toUInt8]
  else if n < 0x800 then [(0xC0 + n / 0x40).toUInt8, (0x80 + n % 0x40).toUInt8]
  else if n < 0x10000 then
    [(0xE0 + n / 0x1000).toUInt8, (0x80 + n / 0x40 % 0x40).toUInt8, (0x80 + n % 0x40).toUInt8]
  else
    [(0xF0 + n / 0x40000).toUInt8, (0x80 + n / 0x1000 % 0x40).toUInt8,
      (0x80 + n / 0x40 % 0x40).toUInt8, (0x80 + n % 0x40).toUInt8]

/-- The bytes of a text. -/
def encode (text : List Char) : List UInt8 :=
  text.flatMap encodeChar

/-- The byte order mark in UTF-8. -/
def signature : List UInt8 :=
  [0xEF, 0xBB, 0xBF]

/-- The range of any byte after the second. -/
def tailRange : Nat × Nat :=
  (0x80, 0xBF)

/-- A character of which some bytes have been read. -/
structure Partial where
  /-- The first byte. -/
  lead : UInt8
  /-- The position of the first byte. -/
  start : Nat
  /-- The bits read so far. -/
  bits : Nat
  /-- The ranges of the bytes that are still due. -/
  due : List (Nat × Nat)

/-- The bits of a first byte and the ranges of the bytes that follow it; nothing if no character starts
with the byte. -/
def lead? (b : Nat) : Option (Nat × List (Nat × Nat)) :=
  if 0xC2 ≤ b ∧ b ≤ 0xDF then some (b - 0xC0, [tailRange])
  else if b = 0xE0 then some (0, [(0xA0, 0xBF), tailRange])
  else if b = 0xED then some (0xD, [(0x80, 0x9F), tailRange])
  else if 0xE1 ≤ b ∧ b ≤ 0xEF then some (b - 0xE0, [tailRange, tailRange])
  else if b = 0xF0 then some (0, [(0x90, 0xBF), tailRange, tailRange])
  else if 0xF1 ≤ b ∧ b ≤ 0xF3 then some (b - 0xF0, [tailRange, tailRange, tailRange])
  else if b = 0xF4 then some (4, [(0x80, 0x8F), tailRange, tailRange])
  else none

/-- A fault in the character that starts with `lead` at `start`, found at the position `stop`. -/
def fault (lead : UInt8) (start stop : Nat) (flaw : DecodeFault.Flaw) : DecodeFault :=
  { codec := "utf-8", lead, start, stop, flaw }

/-- The characters of the bytes from position `here` on, the first of them perhaps partly read. -/
def decodeFrom : Option Partial → Nat → List UInt8 → Except DecodeFault (List Char)
  | none, _, [] => .ok []
  | some p, here, [] => .error (fault p.lead p.start here .unexpectedEnd)
  | none, here, b :: rest =>
      if b.toNat < 0x80 then (Char.ofNat b.toNat :: ·) <$> decodeFrom none (here + 1) rest
      else match lead? b.toNat with
        | some (bits, due) => decodeFrom (some ⟨b, here, bits, due⟩) (here + 1) rest
        | none => .error (fault b here (here + 1) .invalidStart)
  | some p, here, b :: rest =>
      match p.due with
      | [] => .error (fault p.lead p.start here .invalidContinuation)
      | range :: due =>
          if range.1 ≤ b.toNat ∧ b.toNat ≤ range.2 then
            let bits := p.bits * 0x40 + (b.toNat - 0x80)
            if due.isEmpty then (Char.ofNat bits :: ·) <$> decodeFrom none (here + 1) rest
            else decodeFrom (some { p with bits, due }) (here + 1) rest
          else .error (fault p.lead p.start here .invalidContinuation)

/-- The characters of a sequence of bytes. -/
def decode (bytes : List UInt8) : Except DecodeFault (List Char) :=
  decodeFrom none 0 bytes

end StringAudit.Charset.Utf8
