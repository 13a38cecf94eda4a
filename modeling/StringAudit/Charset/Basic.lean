/-!
# Character sets

The ways in which text can be written as bytes.  Three of them put a mark in front of every text: UTF-8
with a signature, and UTF-16 and UTF-32 without a stated byte order, which are then little-endian.
-/

namespace StringAudit

/-- The order of the bytes of a unit. -/
inductive ByteOrder
  | littleEndian
  | bigEndian
  deriving DecidableEq, Repr

/-- A character set that has one byte for each of its characters. -/
inductive Bytewise
  | ascii
  | latin1
  | windows1252
  deriving DecidableEq, Repr

/-- A way to write characters as bytes. -/
inductive Charset
  /-- One byte for each character. -/
  | bytewise (set : Bytewise)
  /-- UTF-8, with or without a signature in front. -/
  | utf8 (signed : Bool)
  /-- UTF-16; with no byte order stated, little-endian after a byte order mark. -/
  | utf16 (order : Option ByteOrder)
  /-- UTF-32; with no byte order stated, little-endian after a byte order mark. -/
  | utf32 (order : Option ByteOrder)
  deriving DecidableEq, Repr

end StringAudit
