import Mathlib.Tactic.Common
import StringAudit.Charset.Utf8

/-!
# UTF-8 reads back what it writes

The bytes of a character satisfy the ranges that its first byte sets for them, and their bits add up
to the character.  So the decoder passes from any character to the next one.

Conversely the ranges leave no other form for a character, so that bytes are read as a text exactly
when they are what is written for it.
-/

namespace StringAudit

/-- A changed result is there exactly when the result is. -/
theorem Except.map_eq_ok_iff {ε α β : Type} {f : α → β} {result : Except ε α} {b : β} :
    f <$> result = .ok b ↔ ∃ a, result = .ok a ∧ f a = b := by
  cases result with
  | error e => simp [Functor.map, Except.map]
  | ok a => simp [Functor.map, Except.map]

end StringAudit

namespace StringAudit.Charset.Utf8

theorem toNat_toUInt8 {n : Nat} (small : n < 0x100) : n.toUInt8.toNat = n := by
  rw [Nat.toUInt8_eq, UInt8.toNat_ofNat']
  exact Nat.mod_eq_of_lt small

/-- No character is a surrogate, and none lies beyond U+10FFFF. -/
theorem toNat_ranges (c : Char) : c.toNat < 0xD800 ∨ (0xDFFF < c.toNat ∧ c.toNat < 0x110000) :=
  c.valid

/-! ## One byte -/

theorem decodeFrom_ascii {here n : Nat} (small : n < 0x80) (rest : List UInt8) :
    decodeFrom none here (n.toUInt8 :: rest) =
      (Char.ofNat n :: ·) <$> decodeFrom none (here + 1) rest := by
  rw [decodeFrom, toNat_toUInt8 (by omega), if_pos small]

/-- A first byte sets the ranges for those that follow. -/
theorem decodeFrom_lead {here b bits : Nat} {due : List (Nat × Nat)} (small : b < 0x100)
    (large : 0x80 ≤ b) (leads : lead? b = some (bits, due)) (rest : List UInt8) :
    decodeFrom none here (b.toUInt8 :: rest) =
      decodeFrom (some ⟨b.toUInt8, here, bits, due⟩) (here + 1) rest := by
  rw [decodeFrom, toNat_toUInt8 small, if_neg (by omega), leads]

/-- A byte within its range adds six bits. -/
theorem decodeFrom_due {p : Partial} {range next : Nat × Nat} {due : List (Nat × Nat)} {here b : Nat}
    (dueEq : p.due = range :: next :: due) (small : b < 0x100) (inRange : range.1 ≤ b ∧ b ≤ range.2)
    (rest : List UInt8) :
    decodeFrom (some p) here (b.toUInt8 :: rest) =
      decodeFrom (some { p with bits := p.bits * 0x40 + (b - 0x80), due := next :: due }) (here + 1)
        rest := by
  rw [decodeFrom, dueEq]
  simp only [toNat_toUInt8 small, if_pos inRange]
  rfl

/-- The last byte completes a character. -/
theorem decodeFrom_last {p : Partial} {range : Nat × Nat} {here b n : Nat} (dueEq : p.due = [range])
    (small : b < 0x100) (inRange : range.1 ≤ b ∧ b ≤ range.2) (whole : p.bits * 0x40 + (b - 0x80) = n)
    (rest : List UInt8) :
    decodeFrom (some p) here (b.toUInt8 :: rest) =
      (Char.ofNat n :: ·) <$> decodeFrom none (here + 1) rest := by
  rw [decodeFrom, dueEq]
  simp only [toNat_toUInt8 small, if_pos inRange, whole]
  rfl

/-! ## One character -/

theorem lead?_two {n : Nat} (low : 0x80 ≤ n) (high : n < 0x800) :
    lead? (0xC0 + n / 0x40) = some (n / 0x40, [tailRange]) := by
  rw [lead?, if_pos (by omega), Nat.add_sub_cancel_left]

/-- The second byte of three lies in the range that the first one sets. -/
theorem lead?_three {n : Nat} (low : 0x800 ≤ n) (high : n < 0x10000)
    (notSurrogate : n < 0xD800 ∨ 0xDFFF < n) :
    ∃ range : Nat × Nat, lead? (0xE0 + n / 0x1000) = some (n / 0x1000, [range, tailRange]) ∧
      range.1 ≤ 0x80 + n / 0x40 % 0x40 ∧ 0x80 + n / 0x40 % 0x40 ≤ range.2 := by
  rw [lead?, if_neg (by omega)]
  by_cases first : n / 0x1000 = 0
  · exact ⟨(0xA0, 0xBF), by rw [if_pos (by omega), first], by simp only; omega⟩
  rw [if_neg (by omega)]
  by_cases surrogates : n / 0x1000 = 0xD
  · exact ⟨(0x80, 0x9F), by rw [if_pos (by omega), surrogates], by simp only; omega⟩
  rw [if_neg (by omega), if_pos (by omega), Nat.add_sub_cancel_left]
  exact ⟨tailRange, rfl, by simp only [tailRange]; omega⟩

/-- The second byte of four lies in the range that the first one sets. -/
theorem lead?_four {n : Nat} (low : 0x10000 ≤ n) (high : n < 0x110000) :
    ∃ range : Nat × Nat, lead? (0xF0 + n / 0x40000) = some (n / 0x40000, [range, tailRange, tailRange]) ∧
      range.1 ≤ 0x80 + n / 0x1000 % 0x40 ∧ 0x80 + n / 0x1000 % 0x40 ≤ range.2 := by
  rw [lead?, if_neg (by omega), if_neg (by omega), if_neg (by omega), if_neg (by omega)]
  by_cases first : n / 0x40000 = 0
  · exact ⟨(0x90, 0xBF), by rw [if_pos (by omega), first], by simp only; omega⟩
  rw [if_neg (by omega)]
  by_cases last : n / 0x40000 = 4
  · exact ⟨(0x80, 0x8F), by rw [if_neg (by omega), if_pos (by omega), last], by simp only; omega⟩
  rw [if_pos (by omega), Nat.add_sub_cancel_left]
  exact ⟨tailRange, rfl, by simp only [tailRange]; omega⟩

theorem tail_inRange (n : Nat) : tailRange.1 ≤ 0x80 + n % 0x40 ∧ 0x80 + n % 0x40 ≤ tailRange.2 := by
  simp only [tailRange]
  omega

/-- The bytes of a character are read as the character. -/
theorem decodeFrom_encodeChar (c : Char) (here : Nat) (rest : List UInt8) :
    ∃ next, decodeFrom none here (encodeChar c ++ rest) = (c :: ·) <$> decodeFrom none next rest := by
  have ranges := toNat_ranges c
  have restored : Char.ofNat c.toNat = c := Char.ofNat_toNat c
  rw [encodeChar]
  generalize c.toNat = n at ranges restored
  split
  · rename_i one
    exact ⟨here + 1, by rw [List.singleton_append, decodeFrom_ascii one, restored]⟩
  split
  · rename_i notOne two
    refine ⟨here + 1 + 1, ?_⟩
    rw [List.cons_append, List.singleton_append,
      decodeFrom_lead (by omega) (by omega) (lead?_two (by omega) two),
      decodeFrom_last (n := n) rfl (by omega) (tail_inRange n) (by simp only; omega), restored]
  split
  · rename_i notTwo three
    obtain ⟨range, leads, inRange⟩ := lead?_three (n := n) (by omega) three (by omega)
    refine ⟨here + 1 + 1 + 1, ?_⟩
    rw [List.cons_append, List.cons_append, List.singleton_append,
      decodeFrom_lead (by omega) (by omega) leads, decodeFrom_due rfl (by omega) inRange,
      decodeFrom_last (n := n) rfl (by omega) (tail_inRange n) (by simp only; omega), restored]
  · obtain ⟨range, leads, inRange⟩ := lead?_four (n := n) (by omega) (by omega)
    refine ⟨here + 1 + 1 + 1 + 1, ?_⟩
    rw [List.cons_append, List.cons_append, List.cons_append, List.singleton_append,
      decodeFrom_lead (by omega) (by omega) leads, decodeFrom_due rfl (by omega) inRange,
      decodeFrom_due rfl (by omega) (tail_inRange (n / 0x40)),
      decodeFrom_last (n := n) rfl (by omega) (tail_inRange n) (by simp only; omega), restored]

/-! ## Texts -/

theorem decodeFrom_encode (text : List Char) (here : Nat) :
    decodeFrom none here (encode text) = .ok text := by
  induction text generalizing here with
  | nil => rfl
  | cons c rest ih =>
      obtain ⟨next, first⟩ := decodeFrom_encodeChar c here (encode rest)
      rw [encode, List.flatMap_cons]
      change decodeFrom none here (encodeChar c ++ encode rest) = _
      rw [first, ih]
      rfl

/-- What is written in UTF-8 is read back. -/
@[simp]
theorem decode_encode (text : List Char) : decode (encode text) = .ok text :=
  decodeFrom_encode text 0

/-- Different texts are written differently. -/
theorem encode_injective : Function.Injective encode := by
  intro text other same
  have read := decode_encode text
  rw [same, decode_encode] at read
  exact (Except.ok.inj read).symm

theorem encode_append (front back : List Char) : encode (front ++ back) = encode front ++ encode back :=
  List.flatMap_append

/-! ## Exactness -/

theorem toUInt8_of_toNat_eq {n : Nat} {b : UInt8} (same : b.toNat = n) : n.toUInt8 = b := by
  rw [← same, Nat.toUInt8_eq, UInt8.ofNat_toNat]

theorem toNat_ofNat {n : Nat} (valid : n < 0xD800 ∨ (0xDFFF < n ∧ n < 0x110000)) :
    (Char.ofNat n).toNat = n := by
  rw [Char.ofNat, dif_pos valid]
  rfl

/-- The bytes that are due lie in their ranges. -/
def Fits : List (Nat × Nat) → List UInt8 → Prop
  | [], tail => tail = []
  | range :: due, tail => ∃ b rest, tail = b :: rest ∧ (range.1 ≤ b.toNat ∧ b.toNat ≤ range.2) ∧
      Fits due rest

/-- The bits of a character, with the six bits of one more byte. -/
def addBits (bits : Nat) (b : UInt8) : Nat :=
  bits * 0x40 + (b.toNat - 0x80)

/-- A character that has been read in part is completed by the bytes that are due. -/
theorem exists_tail_of_decodeFrom {due : List (Nat × Nat)} (more : due ≠ []) {p : Partial}
    (dueEq : p.due = due) {here : Nat} {bytes : List UInt8} {text : List Char}
    (decoded : decodeFrom (some p) here bytes = .ok text) :
    ∃ tail rest others next, bytes = tail ++ rest ∧ Fits due tail ∧
      text = Char.ofNat (tail.foldl addBits p.bits) :: others ∧ decodeFrom none next rest = .ok others := by
  induction due generalizing p here bytes with
  | nil => exact absurd rfl more
  | cons range due ih =>
      cases bytes with
      | nil => cases decoded
      | cons b rest =>
          rw [decodeFrom, dueEq] at decoded
          have added : p.bits * 0x40 + (b.toNat - 0x80) = addBits p.bits b := rfl
          simp only [added] at decoded
          split at decoded
          · rename_i inRange
            split at decoded
            · rename_i last
              obtain rfl := List.isEmpty_iff.mp last
              obtain ⟨others, onward, rfl⟩ := Except.map_eq_ok_iff.mp decoded
              exact ⟨[b], rest, others, here + 1, rfl, ⟨b, [], rfl, inRange, rfl⟩, rfl, onward⟩
            · rename_i further
              obtain ⟨tail, rest', others, next, rfl, fits, textEq, onward⟩ :=
                ih (by simpa using further) rfl decoded
              refine ⟨b :: tail, rest', others, next, rfl, ⟨b, tail, rfl, inRange, fits⟩, ?_, onward⟩
              rw [textEq, List.foldl_cons]
          · cases decoded

/-- What a first byte says: its bits, and how the range of the second byte is narrowed. -/
theorem lead?_cases {b bits : Nat} {due : List (Nat × Nat)} (leads : lead? b = some (bits, due)) :
    (b = 0xC0 + bits ∧ 2 ≤ bits ∧ bits < 0x20 ∧ due = [tailRange]) ∨
      ∃ low high, 0x80 ≤ low ∧ high ≤ 0xBF ∧
        ((b = 0xE0 + bits ∧ bits < 0x10 ∧ (bits = 0 → 0xA0 ≤ low) ∧ (bits = 0xD → high ≤ 0x9F) ∧
            due = [(low, high), tailRange]) ∨
          (b = 0xF0 + bits ∧ bits < 5 ∧ (bits = 0 → 0x90 ≤ low) ∧ (bits = 4 → high ≤ 0x8F) ∧
            due = [(low, high), tailRange, tailRange])) := by
  rw [lead?] at leads
  split_ifs at leads
  all_goals obtain ⟨rfl, rfl⟩ := Prod.mk.inj (Option.some.inj leads)
  · exact Or.inl ⟨by omega, by omega, by omega, rfl⟩
  · exact Or.inr ⟨0xA0, 0xBF, by omega, by omega,
      Or.inl ⟨by omega, by omega, by omega, by omega, rfl⟩⟩
  · exact Or.inr ⟨0x80, 0x9F, by omega, by omega,
      Or.inl ⟨by omega, by omega, by omega, by omega, rfl⟩⟩
  · exact Or.inr ⟨0x80, 0xBF, by omega, by omega,
      Or.inl ⟨by omega, by omega, by omega, by omega, rfl⟩⟩
  · exact Or.inr ⟨0x90, 0xBF, by omega, by omega,
      Or.inr ⟨by omega, by omega, by omega, by omega, rfl⟩⟩
  · exact Or.inr ⟨0x80, 0xBF, by omega, by omega,
      Or.inr ⟨by omega, by omega, by omega, by omega, rfl⟩⟩
  · exact Or.inr ⟨0x80, 0x8F, by omega, by omega,
      Or.inr ⟨by omega, by omega, by omega, by omega, rfl⟩⟩

theorem encodeChar_two {n : Nat} {a b : UInt8} (low : 0x80 ≤ n) (high : n < 0x800)
    (first : a.toNat = 0xC0 + n / 0x40) (second : b.toNat = 0x80 + n % 0x40) :
    encodeChar (Char.ofNat n) = [a, b] := by
  rw [encodeChar, toNat_ofNat (by omega)]
  rw [if_neg (by omega), if_pos high, toUInt8_of_toNat_eq first, toUInt8_of_toNat_eq second]

theorem encodeChar_three {n : Nat} {a b c : UInt8} (low : 0x800 ≤ n) (high : n < 0x10000)
    (notSurrogate : n < 0xD800 ∨ 0xDFFF < n) (first : a.toNat = 0xE0 + n / 0x1000)
    (second : b.toNat = 0x80 + n / 0x40 % 0x40) (third : c.toNat = 0x80 + n % 0x40) :
    encodeChar (Char.ofNat n) = [a, b, c] := by
  rw [encodeChar, toNat_ofNat (by omega)]
  rw [if_neg (by omega), if_neg (by omega), if_pos high, toUInt8_of_toNat_eq first,
    toUInt8_of_toNat_eq second, toUInt8_of_toNat_eq third]

theorem encodeChar_four {n : Nat} {a b c d : UInt8} (low : 0x10000 ≤ n) (high : n < 0x110000)
    (first : a.toNat = 0xF0 + n / 0x40000) (second : b.toNat = 0x80 + n / 0x1000 % 0x40)
    (third : c.toNat = 0x80 + n / 0x40 % 0x40) (fourth : d.toNat = 0x80 + n % 0x40) :
    encodeChar (Char.ofNat n) = [a, b, c, d] := by
  rw [encodeChar, toNat_ofNat (by omega)]
  rw [if_neg (by omega), if_neg (by omega), if_neg (by omega), toUInt8_of_toNat_eq first,
    toUInt8_of_toNat_eq second, toUInt8_of_toNat_eq third, toUInt8_of_toNat_eq fourth]

/-- A first byte and the bytes that it makes due are those of a character. -/
theorem encodeChar_of_lead {lead : UInt8} {bits : Nat} {due : List (Nat × Nat)}
    (leads : lead? lead.toNat = some (bits, due)) {tail : List UInt8} (fits : Fits due tail) :
    encodeChar (Char.ofNat (tail.foldl addBits bits)) = lead :: tail := by
  generalize whole : tail.foldl addBits bits = n
  rcases lead?_cases leads with ⟨first, few, many, rfl⟩ |
    ⟨low, high, _, _, ⟨first, many, least, greatest, rfl⟩ | ⟨first, many, least, greatest, rfl⟩⟩
  · obtain ⟨b, _, rfl, second, rfl⟩ := fits
    simp only [tailRange, List.foldl_cons, List.foldl_nil] at second whole
    unfold addBits at whole
    exact encodeChar_two (by omega) (by omega) (by omega) (by omega)
  · obtain ⟨b, _, rfl, second, c, _, rfl, third, rfl⟩ := fits
    simp only [tailRange, List.foldl_cons, List.foldl_nil] at second third whole
    unfold addBits at whole
    exact encodeChar_three (by omega) (by omega) (by omega) (by omega) (by omega) (by omega)
  · obtain ⟨b, _, rfl, second, c, _, rfl, third, d, _, rfl, fourth, rfl⟩ := fits
    simp only [tailRange, List.foldl_cons, List.foldl_nil] at second third fourth whole
    unfold addBits at whole
    exact encodeChar_four (by omega) (by omega) (by omega) (by omega) (by omega) (by omega)

/-- What has been read starts with the bytes of a character, unless it is empty. -/
theorem exists_char_of_decodeFrom {here : Nat} {bytes : List UInt8} {text : List Char}
    (decoded : decodeFrom none here bytes = .ok text) (nonempty : bytes ≠ []) :
    ∃ c others rest next, text = c :: others ∧ bytes = encodeChar c ++ rest ∧
      decodeFrom none next rest = .ok others := by
  obtain ⟨b, rest, rfl⟩ := List.exists_cons_of_ne_nil nonempty
  rw [decodeFrom] at decoded
  split at decoded
  · rename_i ascii
    obtain ⟨others, onward, rfl⟩ := Except.map_eq_ok_iff.mp decoded
    refine ⟨Char.ofNat b.toNat, others, rest, here + 1, rfl, ?_, onward⟩
    rw [encodeChar, toNat_ofNat (by omega), if_pos ascii, toUInt8_of_toNat_eq rfl,
      List.singleton_append]
  · split at decoded
    · rename_i bits due leads
      have more : due ≠ [] := by
        rcases lead?_cases leads with ⟨_, _, _, rfl⟩ | ⟨_, _, _, _, ⟨_, _, _, _, rfl⟩ | ⟨_, _, _, _, rfl⟩⟩
        all_goals simp
      obtain ⟨tail, rest', others, next, rfl, fits, rfl, onward⟩ :=
        exists_tail_of_decodeFrom more rfl decoded
      exact ⟨_, others, rest', next, rfl, by rw [encodeChar_of_lead leads fits]; rfl, onward⟩
    · cases decoded

theorem encode_of_decodeFrom {here : Nat} {bytes : List UInt8} {text : List Char}
    (decoded : decodeFrom none here bytes = .ok text) : encode text = bytes := by
  induction text generalizing here bytes with
  | nil =>
      by_contra nonempty
      obtain ⟨_, _, _, _, textEq, _⟩ := exists_char_of_decodeFrom decoded (Ne.symm nonempty)
      cases textEq
  | cons c others ih =>
      have nonempty : bytes ≠ [] := by
        rintro rfl
        cases decoded
      obtain ⟨_, _, rest, next, textEq, rfl, onward⟩ := exists_char_of_decodeFrom decoded nonempty
      cases textEq
      rw [encode, List.flatMap_cons]
      exact congrArg _ (ih onward)

/-- Bytes are read as a text exactly when they are what is written for it. -/
theorem decode_eq_ok_iff {bytes : List UInt8} {text : List Char} :
    decode bytes = .ok text ↔ bytes = encode text := by
  constructor
  · intro decoded
    exact (encode_of_decodeFrom decoded).symm
  · rintro rfl
    exact decode_encode text

end StringAudit.Charset.Utf8
