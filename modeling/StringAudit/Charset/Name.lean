import StringAudit.Charset.Basic

/-!
# Names of character sets

A name is looked up by its key: letters in either case are alike, and every run of characters other than
ASCII letters, digits and full stops separates two words of the name.  If the key is no alias, it is
tried with its full stops read as separators.  Some well-known names stand for transformations that are
no character sets, and one stands for a character set that has no texts at all.

The register has eleven character sets: ASCII, two other ones of one byte, and the forms of UTF-8, UTF-16 and
UTF-32.  The library that the program asks knows some ninety more, which are unknown here.  Whatever is to
hold for those too is said for any `Codecs`.
-/

namespace StringAudit.Charset

/-- What a name stands for. -/
inductive Meaning
  /-- A character set. -/
  | charset (c : Charset)
  /-- A transformation that is no character set. -/
  | transformation
  /-- The character set that is there to be refused: not even the empty text can be written in it. -/
  | undefined
  /-- Nothing known. -/
  | unknown
  /-- Not even a name: it holds the character U+0000. -/
  | unusable
  deriving DecidableEq, Repr

/-- A character that is part of a word of a name. -/
def isNameChar (c : Char) : Bool :=
  c.isAlphanum || c = '.'

/-- The words of a name in small letters. -/
def nameWords (name : List Char) : List (List Char) :=
  ((name.map Char.toLower).splitOnP (fun c => !isNameChar c)).filter (· ≠ [])

/-- The key under which a name is looked up: its words, joined by underscores. -/
def key (name : List Char) : String :=
  String.ofList (['_'].intercalate (nameWords name))

/-- The key with its full stops read as separators. -/
def undotted (k : String) : String :=
  String.ofList (k.toList.map fun c => if c = '.' then '_' else c)

/-- An entry of the register of names. -/
structure Registration where
  /-- What the names stand for. -/
  meaning : Meaning
  /-- The key of the main name. -/
  main : String
  /-- The keys of the other names. -/
  aliases : List String

/-- The register of names: eleven character sets, the transformations, and the character set without texts. -/
def register : List Registration :=
  [⟨.charset (.bytewise .ascii), "ascii",
      ["646", "ansi_x3.4_1968", "ansi_x3_4_1968", "ansi_x3.4_1986", "cp367", "csascii", "ibm367",
        "iso646_us", "iso_646.irv_1991", "iso_ir_6", "us", "us_ascii"]⟩,
    ⟨.charset (.bytewise .latin1), "latin_1",
      ["8859", "cp819", "csisolatin1", "ibm819", "iso8859", "iso8859_1", "iso_8859_1",
        "iso_8859_1_1987", "iso_ir_100", "l1", "latin", "latin1"]⟩,
    ⟨.charset (.bytewise .windows1252), "cp1252", ["1252", "windows_1252"]⟩,
    ⟨.charset (.utf8 false), "utf_8", ["cp65001", "u8", "utf", "utf8", "utf8_ucs2", "utf8_ucs4"]⟩,
    ⟨.charset (.utf8 true), "utf_8_sig", []⟩,
    ⟨.charset (.utf16 none), "utf_16", ["u16", "utf16"]⟩,
    ⟨.charset (.utf16 (some .littleEndian)), "utf_16_le", ["unicodelittleunmarked", "utf_16le"]⟩,
    ⟨.charset (.utf16 (some .bigEndian)), "utf_16_be", ["unicodebigunmarked", "utf_16be"]⟩,
    ⟨.charset (.utf32 none), "utf_32", ["u32", "utf32"]⟩,
    ⟨.charset (.utf32 (some .littleEndian)), "utf_32_le", ["utf_32le"]⟩,
    ⟨.charset (.utf32 (some .bigEndian)), "utf_32_be", ["utf_32be"]⟩,
    ⟨.transformation, "base64_codec", ["base64", "base_64"]⟩,
    ⟨.transformation, "bz2_codec", ["bz2"]⟩,
    ⟨.transformation, "hex_codec", ["hex"]⟩,
    ⟨.transformation, "quopri_codec", ["quopri", "quoted_printable", "quotedprintable"]⟩,
    ⟨.transformation, "rot_13", ["rot13"]⟩,
    ⟨.transformation, "uu_codec", ["uu"]⟩,
    ⟨.transformation, "zlib_codec", ["zip", "zlib"]⟩,
    ⟨.undefined, "undefined", []⟩]

/-- Whether a key leads to an entry of the register. -/
def Registration.answers (r : Registration) (k : String) : Bool :=
  r.main = k || r.aliases.contains k || r.aliases.contains (undotted k)

/-- What a name stands for. -/
def meaning (name : String) : Meaning :=
  if name.toList.contains '\x00' then .unusable
  else match register.find? (·.answers (key name.toList)) with
    | some r => r.meaning
    | none => .unknown

end StringAudit.Charset
