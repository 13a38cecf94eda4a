import Mathlib.Data.List.Forall2
import StringAudit.Proofs.Charset.ReadBack
import StringAudit.Proofs.Delivery

/-!
# Texts that are written one after the other

A decoder goes with every character set.  Where a mark may stand in front, it drops one such mark, and takes
the byte order from it.  What a text is written as is read back as that text.

Texts can also be written one after the other, each for itself, and all their bytes decoded at once.  Without
marks this gives the texts, joined as they are.  With marks it gives the texts with a character U+FEFF between
any two of them: only the first mark is at the front, where it is dropped.
-/

namespace StringAudit

section Joining

variable {α : Type} (between : List α)

/-- What is put between lists is there once less often than there are lists. -/
theorem length_intercalate (lists : List (List α)) :
    (between.intercalate lists).length = lists.flatten.length + (lists.length - 1) * between.length := by
  induction lists with
  | nil => simp [List.intercalate]
  | cons first rest ih =>
      cases rest with
      | nil => simp
      | cons second others =>
          rw [List.intercalate_cons_cons, List.length_append, List.length_append, ih]
          simp only [List.flatten_cons, List.length_append, List.length_cons, Nat.add_sub_cancel,
            Nat.add_one_mul]
          omega

theorem intercalate_nil_eq_flatten (lists : List (List α)) : [].intercalate lists = lists.flatten := by
  induction lists with
  | nil => rfl
  | cons first rest ih =>
      cases rest with
      | nil => simp
      | cons second others =>
          rw [List.intercalate_cons_cons, ih, List.append_nil]
          rfl

variable {between}

/-- Joining lists with something between them adds to them, unless there is at most one. -/
theorem intercalate_eq_flatten_iff {lists : List (List α)} :
    between.intercalate lists = lists.flatten ↔ between = [] ∨ lists.length ≤ 1 := by
  constructor
  · intro same
    have longer := length_intercalate between lists
    rw [same] at longer
    have nothing : (lists.length - 1) * between.length = 0 := by omega
    rcases Nat.mul_eq_zero.mp nothing with few | empty
    · exact Or.inr (by omega)
    · exact Or.inl (List.eq_nil_of_length_eq_zero empty)
  · rintro (rfl | few)
    · exact intercalate_nil_eq_flatten lists
    · match lists with
      | [] => rfl
      | [first] => simp

end Joining

namespace Bytewise

/-- The character of a byte, if it has one. -/
def char? : Bytewise → UInt8 → Option Char
  | .ascii, b => if b.toNat < 0x80 then some (Char.ofNat b.toNat) else none
  | .latin1, b => some (Char.ofNat b.toNat)
  | .windows1252, b =>
      if b.toNat < 0x80 ∨ 0xA0 ≤ b.toNat then some (Char.ofNat b.toNat)
      else match windows1252Block[b.toNat - 0x80]? with
        | none | some 0 => none
        | some n => some (Char.ofNat n)

/-- The characters of a sequence of bytes, if each has one. -/
def decode? (set : Bytewise) (bytes : List UInt8) : Option (List Char) :=
  bytes.mapM set.char?

/-- The byte of a character stands for that character. -/
theorem char?_of_byte? {set : Bytewise} {c : Char} {b : UInt8} (has : set.byte? c = some b) :
    set.char? b = some c := by
  have restored : Char.ofNat c.toNat = c := Char.ofNat_toNat c
  cases set with
  | ascii =>
      obtain ⟨small, rfl⟩ := Option.ite_some_none_eq_some.mp has
      rw [char?, Charset.Utf8.toNat_toUInt8 (by omega), if_pos small, restored]
  | latin1 =>
      obtain ⟨small, rfl⟩ := Option.ite_some_none_eq_some.mp has
      rw [char?, Charset.Utf8.toNat_toUInt8 small, restored]
  | windows1252 =>
      simp only [byte?, windows1252Byte?] at has
      split at has
      · rename_i own
        obtain rfl := Option.some.inj has
        rw [char?, Charset.Utf8.toNat_toUInt8 (by omega), if_pos (by omega), restored]
      split at has
      · cases has
      · rename_i positive
        obtain ⟨i, found, rfl⟩ := Option.map_eq_some_iff.mp has
        obtain ⟨within, here, -⟩ := List.findIdx?_eq_some_iff_getElem.mp found
        have small : i < 32 := within
        have located : windows1252Block[i]? = some c.toNat :=
          (List.getElem?_eq_getElem within).trans (congrArg some (beq_iff_eq.mp here))
        rw [char?, Charset.Utf8.toNat_toUInt8 (by omega), if_neg (by omega), Nat.add_sub_cancel_left,
          located]
        split
        · rename_i none
          cases none
        · rename_i zero
          exact absurd (Option.some.inj zero) positive
        · rename_i n _ same
          rw [← Option.some.inj same, restored]

theorem decode?_filterMap {set : Bytewise} {text : List Char} (has : ∀ c ∈ text, set.byte? c ≠ none) :
    set.decode? (text.filterMap set.byte?) = some text := by
  induction text with
  | nil => rfl
  | cons c rest ih =>
      obtain ⟨first, others⟩ := List.forall_mem_cons.mp has
      obtain ⟨b, byteEq⟩ := Option.ne_none_iff_exists'.mp first
      have tail : (rest.filterMap set.byte?).mapM set.char? = some rest := ih others
      rw [decode?, List.filterMap_cons_some byteEq, List.mapM_cons, char?_of_byte? byteEq, tail]
      rfl

end Bytewise

namespace Charset

namespace Utf32

/-- The number of four bytes. -/
def number : ByteOrder → UInt8 → UInt8 → UInt8 → UInt8 → Nat
  | .littleEndian, a, b, c, d => a.toNat + 0x100 * b.toNat + 0x10000 * c.toNat + 0x1000000 * d.toNat
  | .bigEndian, a, b, c, d => 0x1000000 * a.toNat + 0x10000 * b.toNat + 0x100 * c.toNat + d.toNat

/-- The characters of a sequence of bytes, if every four of them are the number of a character. -/
def decode? (order : ByteOrder) : List UInt8 → Option (List Char)
  | [] => some []
  | a :: b :: c :: d :: rest =>
      if (number order a b c d).isValidChar then
        (Char.ofNat (number order a b c d) :: ·) <$> decode? order rest
      else none
  | _ => none

/-- The four bytes of a number, and the number that they give back. -/
theorem exists_wordBytes (order : ByteOrder) {n : Nat} (small : n < 0x110000) :
    ∃ a b c d, wordBytes order n = [a, b, c, d] ∧ number order a b c d = n := by
  have first := Utf8.toNat_toUInt8 (n := n % 0x100) (by omega)
  have second := Utf8.toNat_toUInt8 (n := n / 0x100 % 0x100) (by omega)
  have third := Utf8.toNat_toUInt8 (n := n / 0x10000 % 0x100) (by omega)
  have fourth := Utf8.toNat_toUInt8 (n := n / 0x1000000) (by omega)
  cases order with
  | littleEndian => exact ⟨_, _, _, _, rfl, by rw [number, first, second, third, fourth]; omega⟩
  | bigEndian => exact ⟨_, _, _, _, rfl, by rw [number, first, second, third, fourth]; omega⟩

/-- What is written in UTF-32 is read back. -/
theorem decode?_encode (order : ByteOrder) (text : List Char) :
    decode? order (encode order text) = some text := by
  induction text with
  | nil => rfl
  | cons char rest ih =>
      have ranges := Utf8.toNat_ranges char
      obtain ⟨a, b, c, d, bytesEq, numberEq⟩ := exists_wordBytes order (n := char.toNat) (by omega)
      rw [encode, List.flatMap_cons, bytesEq]
      change decode? order (a :: b :: c :: d :: encode order rest) = _
      rw [decode?, numberEq, if_pos (show char.toNat.isValidChar from char.valid), ih,
        Char.ofNat_toNat]
      rfl

end Utf32

/-! ## Decoders -/

/-- The characters of a sequence of bytes, if it is a text in the character set.  One mark in front is
dropped where the character set calls for one, and tells the byte order. -/
def decode? : Charset → List UInt8 → Option (List Char)
  | bytewise set, bytes => set.decode? bytes
  | utf8 false, bytes => (Utf8.decode bytes).toOption
  | utf8 true, 0xEF :: 0xBB :: 0xBF :: bytes => (Utf8.decode bytes).toOption
  | utf8 true, bytes => (Utf8.decode bytes).toOption
  | utf16 (some order), bytes => (Utf16.decode order 0 bytes).toOption
  | utf16 none, 0xFF :: 0xFE :: bytes => (Utf16.decode .littleEndian 2 bytes).toOption
  | utf16 none, 0xFE :: 0xFF :: bytes => (Utf16.decode .bigEndian 2 bytes).toOption
  | utf16 none, bytes => (Utf16.decode .littleEndian 0 bytes).toOption
  | utf32 (some order), bytes => Utf32.decode? order bytes
  | utf32 none, 0xFF :: 0xFE :: 0 :: 0 :: bytes => Utf32.decode? .littleEndian bytes
  | utf32 none, 0 :: 0 :: 0xFE :: 0xFF :: bytes => Utf32.decode? .bigEndian bytes
  | utf32 none, bytes => Utf32.decode? .littleEndian bytes

/-- What is written in a character set is read back. -/
theorem decode?_of_encode {c : Charset} {text : List Char} {bytes : List UInt8}
    (encoded : c.encode text = .ok bytes) : c.decode? bytes = some text := by
  match c with
  | bytewise set =>
      have has := (exists_encode_iff (bytewise set)).mp ⟨bytes, encoded⟩
      obtain ⟨rfl, -⟩ := TextFile.encode_bytewise encoded
      exact Bytewise.decode?_filterMap has
  | utf8 false | utf8 true =>
      obtain rfl := Except.ok.inj encoded
      exact congrArg Except.toOption (Utf8.decode_encode text)
  | utf16 none =>
      obtain rfl := Except.ok.inj encoded
      exact congrArg Except.toOption (Utf16.decode_encode .littleEndian 2 text)
  | utf16 (some order) =>
      obtain rfl := Except.ok.inj encoded
      exact congrArg Except.toOption (Utf16.decode_encode order 0 text)
  | utf32 none =>
      obtain rfl := Except.ok.inj encoded
      exact Utf32.decode?_encode .littleEndian text
  | utf32 (some order) =>
      obtain rfl := Except.ok.inj encoded
      exact Utf32.decode?_encode order text

theorem decode?_nil (c : Charset) : c.decode? [] = some [] := by
  match c with
  | bytewise set => rfl
  | utf8 false | utf8 true | utf16 none | utf16 (some _) | utf32 none | utf32 (some _) => rfl

/-! ## Marks -/

/-- What a character set puts in front of every text. -/
def opening : Charset → List Char
  | utf8 true | utf16 none | utf32 none => [TextFile.mark]
  | _ => []

/-- The same way to write characters, with nothing put in front of a text. -/
def bare : Charset → Charset
  | utf8 true => utf8 false
  | utf16 none => utf16 (some .littleEndian)
  | utf32 none => utf32 (some .littleEndian)
  | c => c

/-- A mark in front of the bytes is the character U+FEFF in front of the text. -/
theorem encode_eq_bare (c : Charset) (text : List Char) : c.encode text = c.bare.encode (c.opening ++ text) := by
  match c with
  | bytewise set => rfl
  | utf8 false | utf8 true | utf16 none | utf16 (some _) | utf32 none | utf32 (some _) => rfl

/-- With nothing put in front, texts are joined as their bytes are. -/
theorem bare_encode_append (c : Charset) {front back : List Char} {first second : List UInt8}
    (encodedFront : c.bare.encode front = .ok first) (encodedBack : c.bare.encode back = .ok second) :
    c.bare.encode (front ++ back) = .ok (first ++ second) := by
  match c with
  | bytewise set =>
      have hasFront := (exists_encode_iff (bytewise set)).mp ⟨first, encodedFront⟩
      have hasBack := (exists_encode_iff (bytewise set)).mp ⟨second, encodedBack⟩
      have hasBoth := List.forall_mem_append.mpr ⟨hasFront, hasBack⟩
      obtain ⟨bytes, encoded⟩ := (exists_encode_iff (bytewise set)).mpr hasBoth
      obtain ⟨rfl, -⟩ := TextFile.encode_bytewise encodedFront
      obtain ⟨rfl, -⟩ := TextFile.encode_bytewise encodedBack
      obtain ⟨rfl, -⟩ := TextFile.encode_bytewise encoded
      rw [List.filterMap_append] at encoded
      exact encoded
  | utf8 false | utf8 true | utf16 none | utf16 (some _) | utf32 none | utf32 (some _) =>
      obtain rfl := Except.ok.inj encodedFront
      obtain rfl := Except.ok.inj encodedBack
      exact congrArg Except.ok List.flatMap_append

/-- The bytes of texts, one after the other, are those of one text: the texts with what the character set
puts in front of each but the first. -/
theorem encode_intercalate {c : Charset} {texts : List (List Char)} {pieces : List (List UInt8)}
    (encoded : List.Forall₂ (fun text bytes => c.encode text = .ok bytes) texts pieces)
    (nonempty : texts ≠ []) : c.encode (c.opening.intercalate texts) = .ok pieces.flatten := by
  induction encoded with
  | nil => exact absurd rfl nonempty
  | @cons text bytes rest others first encoded ih =>
      by_cases last : rest = []
      · subst last
        cases encoded
        rw [List.intercalate_singleton, List.flatten_singleton]
        exact first
      · have onward := ih last
        rw [encode_eq_bare] at first onward ⊢
        rw [List.intercalate_cons_of_ne_nil last, List.flatten_cons, List.append_assoc, ← List.append_assoc]
        exact bare_encode_append c first onward

/-- Decoding the bytes of texts, one after the other, gives the texts with what the character set puts in
front of each but the first. -/
theorem decode?_flatten {c : Charset} {texts : List (List Char)} {pieces : List (List UInt8)}
    (encoded : List.Forall₂ (fun text bytes => c.encode text = .ok bytes) texts pieces) :
    c.decode? pieces.flatten = some (c.opening.intercalate texts) := by
  by_cases none : texts = []
  · subst none
    cases encoded
    exact decode?_nil c
  · exact decode?_of_encode (encode_intercalate encoded none)

end Charset

end StringAudit
