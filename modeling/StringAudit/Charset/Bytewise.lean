import StringAudit.Charset.Fault

/-!
# Character sets of one byte

ASCII has the first 128 characters of Unicode and Latin-1 the first 256, each at its own number.
Windows-1252 differs from Latin-1 in the 32 bytes from 0x80 on: 27 of them are other characters and five
are none.
-/

namespace StringAudit.Bytewise

/-- The characters of Windows-1252 at the bytes 0x80 to 0x9F; zero where there is none. -/
def windows1252Block : List Nat :=
  [0x20AC, 0, 0x201A, 0x0192, 0x201E, 0x2026, 0x2020, 0x2021, 0x02C6, 0x2030, 0x0160, 0x2039, 0x0152, 0,
    0x017D, 0, 0, 0x2018, 0x2019, 0x201C, 0x201D, 0x2022, 0x2013, 0x2014, 0x02DC, 0x2122, 0x0161,
    0x203A, 0x0153, 0, 0x017E, 0x0178]

/-- The byte of a character in Windows-1252. -/
def windows1252Byte? (c : Char) : Option UInt8 :=
  let n := c.toNat
  if n < 0x80 ∨ (0xA0 ≤ n ∧ n < 0x100) then some n.toUInt8
  else if n = 0 then none
  else (windows1252Block.findIdx? (· == n)).map fun i => (0x80 + i).toUInt8

/-- The byte of a character in ASCII. -/
def asciiByte? (c : Char) : Option UInt8 :=
  if c.toNat < 0x80 then some c.toNat.toUInt8 else none

/-- The byte of a character in Latin-1. -/
def latin1Byte? (c : Char) : Option UInt8 :=
  if c.toNat < 0x100 then some c.toNat.toUInt8 else none

/-- The byte of a character. -/
def byte? : Bytewise → Char → Option UInt8
  | .ascii => asciiByte?
  | .latin1 => latin1Byte?
  | .windows1252 => windows1252Byte?

/-- Whether a character set lacks a character. -/
def lacks (set : Bytewise) (c : Char) : Bool :=
  (set.byte? c).isNone

/-- The bytes of a text; a fault names the first run of characters that have no byte. -/
def encode (set : Bytewise) (text : List Char) : Except EncodeFault (List UInt8) :=
  match text.dropWhile (!set.lacks ·) with
  | [] => .ok (text.filterMap set.byte?)
  | c :: rest =>
      let start := (text.takeWhile (!set.lacks ·)).length
      .error (.unencodable set c start (start + 1 + (rest.takeWhile set.lacks).length))

end StringAudit.Bytewise
