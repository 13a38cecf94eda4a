import Mathlib.Data.List.TakeWhile
import Mathlib.Tactic.Common
import StringAudit.Proofs.Charset.Ascii
import StringAudit.Proofs.Charset.Reading

/-!
# Which texts are read back, exactly

A file is read by rules of its own, whatever character set it was written in.  Its bytes are then
those of UTF-16 behind a mark, or those of UTF-8.  A character set with one byte for each character
agrees with this on ASCII alone.  The fixed-width forms without a mark agree on nothing but the empty
text: their bytes outweigh those of UTF-8 character by character.
-/

namespace StringAudit.TextFile

open Charset

/-- The texts that are read back from a file as they were written in a character set. -/
def ReadsBack : Charset → List Char → Prop
  | .bytewise _, text => Ascii text
  | .utf8 false, text => text.head? ≠ some mark
  | .utf8 true, _ => True
  | .utf16 none, _ => True
  | .utf16 (some _), text => text = []
  | .utf32 none, _ => False
  | .utf32 (some _), text => text = []

/-- The bytes that are read as a text are those of UTF-16 behind a mark, or those of UTF-8. -/
theorem bytes_of_decode {bytes : List UInt8} {text : List Char} (decoded : decode bytes = .ok text) :
    (∃ order, bytes = Utf16.signature order ++ Utf16.encode order text) ∨
      bytes = Utf8.signature ++ Utf8.encode text ∨ bytes = Utf8.encode text := by
  rw [decode.eq_def] at decoded
  split at decoded
  · exact Or.inl ⟨.littleEndian, by rw [Utf16.decode_eq_ok_iff.mp decoded]; rfl⟩
  · exact Or.inl ⟨.bigEndian, by rw [Utf16.decode_eq_ok_iff.mp decoded]; rfl⟩
  · exact Or.inr (Or.inl (by rw [Utf8.decode_eq_ok_iff.mp decoded]; rfl))
  · exact Or.inr (Or.inr (Utf8.decode_eq_ok_iff.mp decoded))

/-! ## Lengths -/

theorem length_flatMap_eq {α β : Type} {f : α → List β} {k : Nat} (each : ∀ a, (f a).length = k)
    (items : List α) : (items.flatMap f).length = k * items.length := by
  induction items with
  | nil => rfl
  | cons a rest ih =>
      rw [List.flatMap_cons, List.length_append, each, ih, List.length_cons, Nat.mul_succ, Nat.add_comm]

/-- The length in UTF-16 does not depend on the order of the bytes. -/
theorem length_utf16 (order : ByteOrder) (text : List Char) :
    (Utf16.encode order text).length = 2 * (text.flatMap Utf16.units).length := by
  have two : ∀ u, (Utf16.unitBytes order u).length = 2 := by
    intro u
    cases order <;> rfl
  rw [Utf16.encode, ← List.flatMap_assoc, length_flatMap_eq two]

theorem length_signature (order : ByteOrder) : (Utf16.signature order).length = 2 := by
  cases order <;> rfl

theorem length_flatMap_units (text : List Char) :
    text.length ≤ (text.flatMap Utf16.units).length ∧
      (text.flatMap Utf16.units).length ≤ 2 * text.length := by
  induction text with
  | nil => simp
  | cons c rest ih =>
      have first : 1 ≤ (Utf16.units c).length ∧ (Utf16.units c).length ≤ 2 := by
        rw [Utf16.units]
        split <;> simp
      rw [List.flatMap_cons, List.length_append, List.length_cons]
      omega

theorem length_utf32 (order : ByteOrder) (text : List Char) :
    (Utf32.encode order text).length = 4 * text.length := by
  apply length_flatMap_eq
  intro c
  cases order <;> rfl

/-- A text takes at least one byte for each character in UTF-8, and no more only in ASCII. -/
theorem length_utf8 (text : List Char) :
    text.length ≤ (Utf8.encode text).length ∧
      ((Utf8.encode text).length = text.length → Ascii text) := by
  induction text with
  | nil => exact ⟨Nat.le_refl 0, fun _ _ mem => absurd mem List.not_mem_nil⟩
  | cons c rest ih =>
      have first : 1 ≤ (Utf8.encodeChar c).length ∧
          ((Utf8.encodeChar c).length = 1 → c.toNat < 0x80) := by
        rw [Utf8.encodeChar]
        split_ifs with one
        · exact ⟨Nat.le_refl 1, fun _ => one⟩
        all_goals simp
      have whole : (Utf8.encode (c :: rest)).length =
          (Utf8.encodeChar c).length + (Utf8.encode rest).length := by
        simp [Utf8.encode]
      rw [whole, List.length_cons]
      refine ⟨by omega, fun same => ?_⟩
      exact List.forall_mem_cons.mpr ⟨first.2 (by omega), ih.2 (by omega)⟩

/-! ## Weights -/

/-- The weight of a byte, given as a number.  It is made so that a character weighs less in UTF-8 than
in UTF-16 or UTF-32: these have bytes below 0x80, or those of surrogates, where UTF-8 has none. -/
def weight (n : Nat) : Int :=
  if n < 0x80 then 1 else if 0xD8 ≤ n ∧ n < 0xE0 then 0 else -1

theorem weight_low {n : Nat} (low : n < 0x80) : weight n = 1 := by
  rw [weight, if_pos low]

theorem weight_surrogate {n : Nat} (first : 0xD8 ≤ n) (last : n < 0xE0) : weight n = 0 := by
  rw [weight, if_neg (by omega), if_pos ⟨first, last⟩]

theorem weight_ge (n : Nat) : -1 ≤ weight n := by
  rw [weight]
  split_ifs <;> decide

/-- The weight of a sequence of bytes. -/
def total : List UInt8 → Int
  | [] => 0
  | b :: rest => weight b.toNat + total rest

@[simp]
theorem total_append (front back : List UInt8) : total (front ++ back) = total front + total back := by
  induction front with
  | nil => rw [List.nil_append, total, Int.zero_add]
  | cons b rest ih => rw [List.cons_append, total, total, ih, Int.add_assoc]

/-- In UTF-8 a character weighs one in ASCII, and less than nothing elsewhere. -/
theorem total_encodeChar (c : Char) :
    (c.toNat < 0x80 → total (Utf8.encodeChar c) = 1) ∧
    (0x80 ≤ c.toNat → total (Utf8.encodeChar c) ≤ -1) ∧
    (0x800 ≤ c.toNat → total (Utf8.encodeChar c) ≤ -3) := by
  have tail : ∀ m, weight (0x80 + m % 0x40) = -1 := by
    intro m
    rw [weight, if_neg (by omega), if_neg (by omega)]
  have lead : ∀ m, 0x80 ≤ m → weight m ≤ 0 := by
    intro m large
    rw [weight, if_neg (by omega)]
    split_ifs <;> decide
  have wideLead : ∀ m, 0xE0 ≤ m → weight m = -1 := by
    intro m large
    rw [weight, if_neg (by omega), if_neg (by omega)]
  have ranges := Utf8.toNat_ranges c
  rw [Utf8.encodeChar]
  generalize c.toNat = n at ranges
  split_ifs with one two three
  · rw [total, total, Utf8.toNat_toUInt8 (by omega), weight_low one]
    omega
  · have first := lead (0xC0 + n / 0x40) (by omega)
    simp (disch := omega) only [total, Utf8.toNat_toUInt8, tail]
    omega
  · simp (disch := omega) only [total, Utf8.toNat_toUInt8, tail, wideLead]
    omega
  · simp (disch := omega) only [total, Utf8.toNat_toUInt8, tail, wideLead]
    omega

theorem total_unitBytes (order : ByteOrder) {u : Nat} (small : u < 0x10000) :
    total (Utf16.unitBytes order u) = weight (u % 0x100) + weight (u / 0x100) := by
  cases order
  all_goals
    simp (disch := omega) only [Utf16.unitBytes, total, Utf8.toNat_toUInt8]
    omega

/-- A character weighs less in UTF-8 than in UTF-16. -/
theorem total_encodeChar_lt_utf16 (order : ByteOrder) (c : Char) :
    total (Utf8.encodeChar c) < total ((Utf16.units c).flatMap (Utf16.unitBytes order)) := by
  obtain ⟨ascii, other, wide⟩ := total_encodeChar c
  have ranges := Utf8.toNat_ranges c
  generalize total (Utf8.encodeChar c) = least at *
  rw [Utf16.units]
  generalize c.toNat = n at *
  split_ifs with one
  · have low := weight_ge (n % 0x100)
    have high := weight_ge (n / 0x100)
    rw [List.flatMap_cons, List.flatMap_nil, List.append_nil, total_unitBytes order one]
    by_cases isAscii : n < 0x80
    · rw [weight_low (n := n % 0x100) (by omega), weight_low (n := n / 0x100) (by omega)]
      omega
    by_cases narrow : n < 0x800
    · rw [weight_low (n := n / 0x100) (by omega)]
      omega
    · omega
  · have first := weight_ge ((0xD800 + (n - 0x10000) / 0x400) % 0x100)
    have second := weight_ge ((0xDC00 + (n - 0x10000) % 0x400) % 0x100)
    rw [List.flatMap_cons, List.flatMap_cons, List.flatMap_nil, List.append_nil, total_append,
      total_unitBytes order (by omega), total_unitBytes order (by omega),
      weight_surrogate (n := (0xD800 + (n - 0x10000) / 0x400) / 0x100) (by omega) (by omega),
      weight_surrogate (n := (0xDC00 + (n - 0x10000) % 0x400) / 0x100) (by omega) (by omega)]
    omega

/-- A character weighs less in UTF-8 than in UTF-32. -/
theorem total_encodeChar_lt_utf32 (order : ByteOrder) (c : Char) :
    total (Utf8.encodeChar c) < total (Utf32.wordBytes order c.toNat) := by
  obtain ⟨ascii, other, -⟩ := total_encodeChar c
  have ranges := Utf8.toNat_ranges c
  generalize total (Utf8.encodeChar c) = least at *
  generalize c.toNat = n at *
  have whole : total (Utf32.wordBytes order n) = weight (n % 0x100) + weight (n / 0x100 % 0x100) + 2 := by
    have third := weight_low (n := n / 0x10000 % 0x100) (by omega)
    have fourth := weight_low (n := n / 0x1000000) (by omega)
    cases order
    all_goals
      simp (disch := omega) only [Utf32.wordBytes, total, Utf8.toNat_toUInt8, third, fourth]
      omega
  have first := weight_ge (n % 0x100)
  have second := weight_ge (n / 0x100 % 0x100)
  by_cases isAscii : n < 0x80
  · rw [weight_low (n := n % 0x100) (by omega), weight_low (n := n / 0x100 % 0x100) (by omega)] at whole
    omega
  · omega

/-- Where every character weighs more than in UTF-8, no text but the empty one has the bytes of UTF-8
behind lighter ones. -/
theorem eq_nil_of_heavier {bytes : Char → List UInt8}
    (heavier : ∀ c, total (Utf8.encodeChar c) < total (bytes c)) (front back : List UInt8)
    (lighter : total front ≤ total back) {text : List Char}
    (same : back ++ text.flatMap bytes = front ++ Utf8.encode text) : text = [] := by
  have atMost : ∀ rest : List Char, total (Utf8.encode rest) ≤ total (rest.flatMap bytes) := by
    intro rest
    induction rest with
    | nil => exact Int.le_refl 0
    | cons c rest ih =>
        have first := heavier c
        simp only [Utf8.encode, List.flatMap_cons, total_append] at ih ⊢
        omega
  cases text with
  | nil => rfl
  | cons c rest =>
      have first := heavier c
      have others := atMost rest
      have weights := congrArg total same
      simp only [Utf8.encode, List.flatMap_cons, total_append] at others weights
      omega

/-! ## Marks -/

/-- The first unit of a character is the character itself, or a surrogate. -/
theorem exists_units (c : Char) :
    ∃ u more, Utf16.units c = u :: more ∧ u < 0x10000 ∧ (c.toNat = u ∨ 0xD800 ≤ u ∧ u < 0xDC00) := by
  have ranges := Utf8.toNat_ranges c
  rw [Utf16.units]
  generalize c.toNat = n at *
  split_ifs with one
  · exact ⟨n, [], rfl, one, Or.inl rfl⟩
  · exact ⟨_, _, rfl, by omega, Or.inr ⟨by omega, by omega⟩⟩

/-- A text in UTF-32 is not the same text in UTF-16 behind a mark: its fourth byte, or its first, is
zero. -/
theorem utf32_ne_utf16 (order order' : ByteOrder) (c : Char) (rest : List UInt8) (text : List Char) :
    Utf32.wordBytes order c.toNat ++ rest ≠
      Utf16.signature order' ++ Utf16.encode order' (c :: text) := by
  have byte_inj : ∀ {m n : Nat}, m < 0x100 → n < 0x100 → m.toUInt8 = n.toUInt8 → m = n := by
    intro m n small small' same
    rw [← Utf8.toNat_toUInt8 small, same, Utf8.toNat_toUInt8 small']
  obtain ⟨u, more, unitsEq, small, first⟩ := exists_units c
  have ranges := Utf8.toNat_ranges c
  rw [Utf16.encode, List.flatMap_cons, unitsEq, List.flatMap_cons]
  generalize c.toNat = n at *
  intro same
  cases order with
  | bigEndian =>
      cases order'
      all_goals
        have lead := byte_inj (by omega) (by omega) (List.cons.inj same).1
        omega
  | littleEndian =>
      cases order'
      all_goals
        obtain ⟨firstEq, same⟩ := List.cons.inj same
        obtain ⟨-, same⟩ := List.cons.inj same
        obtain ⟨thirdEq, same⟩ := List.cons.inj same
        obtain ⟨lastEq, -⟩ := List.cons.inj same
        have lead := byte_inj (by omega) (by omega) firstEq
        have third := byte_inj (by omega) (by omega) thirdEq
        have last := byte_inj (by omega) (by omega) lastEq
        omega

/-! ## Character sets of one byte -/

/-- What is written in a character set of one byte has one byte for each character. -/
theorem encode_bytewise {set : Bytewise} {text : List Char} {bytes : List UInt8}
    (encoded : set.encode text = .ok bytes) :
    bytes = text.filterMap set.byte? ∧ bytes.length = text.length := by
  rw [Bytewise.encode] at encoded
  split at encoded
  · rename_i nothing
    obtain rfl := Except.ok.inj encoded
    refine ⟨rfl, ?_⟩
    rw [List.filterMap_length_eq_length]
    intro c mem
    have had := List.dropWhile_eq_nil_iff.1 nothing c mem
    simpa [Bytewise.lacks] using had
  · cases encoded

/-- Where a text is in ASCII, it is written as in UTF-8. -/
theorem filterMap_byte?_of_ascii (set : Bytewise) {text : List Char}
    (ascii : Ascii text) : text.filterMap set.byte? = Utf8.encode text := by
  induction text with
  | nil => rfl
  | cons c rest ih =>
      obtain ⟨first, others⟩ := List.forall_mem_cons.mp ascii
      rw [Utf8.encode, List.flatMap_cons, Utf8.encodeChar, if_pos first,
        List.filterMap_cons_some (Charset.byte?_of_ascii set first), ih others]
      rfl

theorem head?_ne_mark_of_ascii {text : List Char} (ascii : Ascii text) :
    text.head? ≠ some mark := by
  intro marked
  have small := ascii mark (List.mem_of_head? marked)
  exact absurd small (by decide)

/-! ## All character sets -/

theorem decode_utf8_eq_iff {text : List Char} :
    decode (Utf8.encode text) = .ok text ↔ text.head? ≠ some mark := by
  rw [decode_utf8]
  constructor
  · intro same marked
    cases text with
    | nil => cases marked
    | cons c rest =>
        rw [unmarked, if_pos (Option.some.inj marked)] at same
        exact List.cons_ne_self c rest (Except.ok.inj same).symm
  · intro plain
    rw [unmarked_eq_self plain]

theorem decode_bytewise_eq_iff {set : Bytewise} {text : List Char} {bytes : List UInt8}
    (encoded : set.encode text = .ok bytes) :
    decode bytes = .ok text ↔ Ascii text := by
  obtain ⟨bytesEq, lengthEq⟩ := encode_bytewise encoded
  constructor
  · intro decoded
    obtain ⟨longer, ascii⟩ := length_utf8 text
    rcases bytes_of_decode decoded with ⟨order, same⟩ | same | same
    · have wider := length_flatMap_units text
      rw [same, List.length_append, length_utf16, length_signature] at lengthEq
      omega
    · rw [same, List.length_append] at lengthEq
      have three : Utf8.signature.length = 3 := rfl
      omega
    · exact ascii (same ▸ lengthEq)
  · intro ascii
    rw [bytesEq, filterMap_byte?_of_ascii set ascii]
    exact decode_utf8_eq_iff.mpr (head?_ne_mark_of_ascii ascii)

theorem decode_utf16_eq_iff {order : ByteOrder} {text : List Char} :
    decode (Utf16.encode order text) = .ok text ↔ text = [] := by
  constructor
  · intro decoded
    have heavier := total_encodeChar_lt_utf16 order
    rcases bytes_of_decode decoded with ⟨order', same⟩ | same | same
    · have lengths := congrArg List.length same
      rw [List.length_append, length_utf16, length_utf16, length_signature] at lengths
      omega
    · exact eq_nil_of_heavier heavier _ [] (by decide) same
    · exact eq_nil_of_heavier heavier [] [] (by decide) same
  · rintro rfl
    rfl

theorem decode_utf32_eq_iff {order : ByteOrder} {text : List Char} :
    decode (Utf32.encode order text) = .ok text ↔ text = [] := by
  constructor
  · intro decoded
    have heavier := total_encodeChar_lt_utf32 order
    rcases bytes_of_decode decoded with ⟨order', same⟩ | same | same
    · cases text with
      | nil => rfl
      | cons c rest => exact absurd same (utf32_ne_utf16 order order' c _ rest)
    · exact eq_nil_of_heavier heavier _ [] (by decide) same
    · exact eq_nil_of_heavier heavier [] [] (by decide) same
  · rintro rfl
    rfl

theorem decode_marked_utf32_ne (text : List Char) :
    decode (Utf32.signature .littleEndian ++ Utf32.encode .littleEndian text) ≠ .ok text := by
  intro decoded
  have heavier := total_encodeChar_lt_utf32 .littleEndian
  rcases bytes_of_decode decoded with ⟨order', same⟩ | same | same
  · have lengths := congrArg List.length same
    have four : (Utf32.signature .littleEndian).length = 4 := rfl
    have wider := length_flatMap_units text
    rw [List.length_append, List.length_append, length_utf16, length_utf32, length_signature, four]
      at lengths
    omega
  · cases same
  · obtain rfl := eq_nil_of_heavier heavier [] _ (by decide) same
    cases same

/-- A sequence of bytes by which a text can be told to the reader: that of UTF-16 in either order behind a mark,
that of UTF-8 behind one, and that of UTF-8 alone, unless the text itself starts with the mark. -/
inductive Spells (text : List Char) : List UInt8 → Prop
  | utf16 (order : ByteOrder) : Spells text (Utf16.signature order ++ Utf16.encode order text)
  | signed : Spells text (Utf8.signature ++ Utf8.encode text)
  | plain (unmarked : text.head? ≠ some mark) : Spells text (Utf8.encode text)

/-- The reader makes a text of the bytes that spell it, and of no others. -/
theorem decode_eq_ok_iff {bytes : List UInt8} {text : List Char} :
    decode bytes = .ok text ↔ Spells text bytes := by
  constructor
  · intro decoded
    rcases bytes_of_decode decoded with ⟨order, rfl⟩ | rfl | rfl
    · exact .utf16 order
    · exact .signed
    · exact .plain (decode_utf8_eq_iff.mp decoded)
  · intro spells
    cases spells with
    | utf16 order =>
        cases order with
        | littleEndian => exact decode_utf16 text
        | bigEndian => exact Utf16.decode_encode .bigEndian 2 text
    | signed => exact decode_signed_utf8 text
    | plain unmarked => exact decode_utf8_eq_iff.mpr unmarked

/-- What is written in a character set is read back exactly when `ReadsBack` says so. -/
theorem decode_encode_eq_iff {c : Charset} {text : List Char} {bytes : List UInt8}
    (encoded : c.encode text = .ok bytes) : decode bytes = .ok text ↔ ReadsBack c text := by
  match c with
  | .bytewise set => exact decode_bytewise_eq_iff encoded
  | .utf8 false =>
      cases encoded
      exact decode_utf8_eq_iff
  | .utf8 true =>
      cases encoded
      exact iff_of_true (decode_signed_utf8 text) trivial
  | .utf16 none =>
      cases encoded
      exact iff_of_true (decode_utf16 text) trivial
  | .utf16 (some order) =>
      cases encoded
      exact decode_utf16_eq_iff
  | .utf32 none =>
      cases encoded
      exact iff_of_false (decode_marked_utf32_ne text) id
  | .utf32 (some order) =>
      cases encoded
      exact decode_utf32_eq_iff

end StringAudit.TextFile
