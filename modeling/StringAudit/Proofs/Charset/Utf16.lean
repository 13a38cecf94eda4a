import StringAudit.Charset.Utf16
import StringAudit.Proofs.Charset.Utf8

/-!
# UTF-16 reads back what it writes

The two bytes of a unit give the unit back in either order.  A character is one unit that is no
surrogate, or a high surrogate followed by the low one that completes it.  Bytes are read as a text
exactly when they are what is written for it.
-/

namespace StringAudit.Charset.Utf16

/-! ## Units -/

/-- The bytes of a unit, and the unit that they give back. -/
theorem exists_unitBytes (order : ByteOrder) {u : Nat} (small : u < 0x10000) :
    ∃ a b, unitBytes order u = [a, b] ∧ unit order a b = u := by
  have low := Utf8.toNat_toUInt8 (n := u % 0x100) (by omega)
  have high := Utf8.toNat_toUInt8 (n := u / 0x100) (by omega)
  cases order with
  | littleEndian => exact ⟨_, _, rfl, by rw [unit, low, high]; omega⟩
  | bigEndian => exact ⟨_, _, rfl, by rw [unit, low, high]; omega⟩

/-- A unit that is no surrogate is a character. -/
theorem decodeFrom_single (order : ByteOrder) {u here : Nat} (small : u < 0x10000)
    (notSurrogate : u < 0xD800 ∨ 0xDFFF < u) (rest : List UInt8) :
    decodeFrom order none here (unitBytes order u ++ rest) =
      (Char.ofNat u :: ·) <$> decodeFrom order none (here + 2) rest := by
  obtain ⟨a, b, bytesEq, unitEq⟩ := exists_unitBytes order small
  have notHigh : isHigh u = false := by
    simp only [isHigh, Bool.and_eq_false_iff, decide_eq_false_iff_not]
    omega
  have notLow : isLow u = false := by
    simp only [isLow, Bool.and_eq_false_iff, decide_eq_false_iff_not]
    omega
  rw [bytesEq]
  change decodeFrom order none here (a :: b :: rest) = _
  rw [decodeFrom]
  simp only [unitEq, notHigh, notLow, Bool.false_eq_true, if_false]

/-- A high surrogate and a low one are one character. -/
theorem decodeFrom_pair (order : ByteOrder) {high low here : Nat} (isHigh' : isHigh high = true)
    (isLow' : isLow low = true) (rest : List UInt8) :
    decodeFrom order none here (unitBytes order high ++ (unitBytes order low ++ rest)) =
      (Char.ofNat (0x10000 + (high - 0xD800) * 0x400 + (low - 0xDC00)) :: ·) <$>
        decodeFrom order none (here + 2 + 2) rest := by
  have highRange : 0xD800 ≤ high ∧ high < 0xDC00 := by simpa [isHigh] using isHigh'
  have lowRange : 0xDC00 ≤ low ∧ low < 0xE000 := by simpa [isLow] using isLow'
  obtain ⟨a, b, highBytes, highEq⟩ := exists_unitBytes order (u := high) (by omega)
  obtain ⟨c, d, lowBytes, lowEq⟩ := exists_unitBytes order (u := low) (by omega)
  rw [highBytes, lowBytes]
  change decodeFrom order none here (a :: b :: c :: d :: rest) = _
  rw [decodeFrom]
  simp only [highEq, isHigh', if_true]
  rw [decodeFrom]
  simp only [lowEq, isLow', if_true]

/-! ## Texts -/

/-- The units of a character are read as the character. -/
theorem decodeFrom_units (order : ByteOrder) (c : Char) (here : Nat) (rest : List UInt8) :
    ∃ next, decodeFrom order none here ((units c).flatMap (unitBytes order) ++ rest) =
      (c :: ·) <$> decodeFrom order none next rest := by
  have ranges := Utf8.toNat_ranges c
  have restored : Char.ofNat c.toNat = c := Char.ofNat_toNat c
  rw [units]
  generalize c.toNat = n at ranges restored
  split
  · rename_i one
    refine ⟨here + 2, ?_⟩
    rw [List.flatMap_cons, List.flatMap_nil, List.append_nil,
      decodeFrom_single order one (by omega), restored]
  · rename_i two
    refine ⟨here + 2 + 2, ?_⟩
    have whole : 0x10000 + (0xD800 + (n - 0x10000) / 0x400 - 0xD800) * 0x400 +
        (0xDC00 + (n - 0x10000) % 0x400 - 0xDC00) = n := by
      omega
    rw [List.flatMap_cons, List.flatMap_cons, List.flatMap_nil, List.append_nil, List.append_assoc,
      decodeFrom_pair order, whole, restored]
    · simp only [isHigh, Bool.and_eq_true, decide_eq_true_eq]
      omega
    · simp only [isLow, Bool.and_eq_true, decide_eq_true_eq]
      omega

theorem decodeFrom_encode (order : ByteOrder) (text : List Char) (here : Nat) :
    decodeFrom order none here (encode order text) = .ok text := by
  induction text generalizing here with
  | nil => rfl
  | cons c rest ih =>
      obtain ⟨next, first⟩ := decodeFrom_units order c here (encode order rest)
      rw [encode, List.flatMap_cons]
      change decodeFrom order none here
        ((units c).flatMap (unitBytes order) ++ encode order rest) = _
      rw [first, ih]
      rfl

/-- What is written in UTF-16 is read back. -/
@[simp]
theorem decode_encode (order : ByteOrder) (here : Nat) (text : List Char) :
    decode order here (encode order text) = .ok text :=
  decodeFrom_encode order text here

/-! ## Exactness -/

/-- Two bytes are those of their unit. -/
theorem unitBytes_unit (order : ByteOrder) (a b : UInt8) :
    unitBytes order (unit order a b) = [a, b] ∧ unit order a b < 0x10000 := by
  have first := UInt8.toNat_lt a
  have second := UInt8.toNat_lt b
  cases order with
  | littleEndian =>
      simp only [unit, unitBytes]
      rw [Utf8.toUInt8_of_toNat_eq (b := a) (by omega), Utf8.toUInt8_of_toNat_eq (b := b) (by omega)]
      exact ⟨rfl, by omega⟩
  | bigEndian =>
      simp only [unit, unitBytes]
      rw [Utf8.toUInt8_of_toNat_eq (b := a) (by omega), Utf8.toUInt8_of_toNat_eq (b := b) (by omega)]
      exact ⟨rfl, by omega⟩

theorem units_single {u : Nat} (small : u < 0x10000) (notHigh : isHigh u = false)
    (notLow : isLow u = false) : units (Char.ofNat u) = [u] := by
  simp only [isHigh, isLow, Bool.and_eq_false_iff, decide_eq_false_iff_not] at notHigh notLow
  rw [units, Utf8.toNat_ofNat (by omega), if_pos small]

theorem units_pair {high low : Nat} (isHigh' : isHigh high = true) (isLow' : isLow low = true) :
    units (Char.ofNat (0x10000 + (high - 0xD800) * 0x400 + (low - 0xDC00))) = [high, low] := by
  simp only [isHigh, isLow, Bool.and_eq_true, decide_eq_true_eq] at isHigh' isLow'
  rw [units, Utf8.toNat_ofNat (by omega), if_neg (by omega)]
  exact congrArg₂ (fun a b => [a, b]) (by omega) (by omega)

/-- A low surrogate completes the high one in front of it. -/
theorem exists_low_of_decodeFrom {order : ByteOrder} {lead : UInt8} {high here : Nat}
    {bytes : List UInt8} {text : List Char}
    (decoded : decodeFrom order (some (lead, high)) here bytes = .ok text) :
    ∃ low rest others next, bytes = unitBytes order low ++ rest ∧ isLow low = true ∧
      text = Char.ofNat (0x10000 + (high - 0xD800) * 0x400 + (low - 0xDC00)) :: others ∧
      decodeFrom order none next rest = .ok others := by
  match bytes with
  | [] => cases decoded
  | [_] => cases decoded
  | a :: b :: rest =>
      rw [decodeFrom] at decoded
      split at decoded
      · rename_i low
        obtain ⟨others, onward, rfl⟩ := Except.map_eq_ok_iff.mp decoded
        exact ⟨unit order a b, rest, others, here + 2,
          by rw [(unitBytes_unit order a b).1]; rfl, low, rfl, onward⟩
      · cases decoded

/-- What has been read starts with the bytes of a character, unless it is empty. -/
theorem exists_char_of_decodeFrom {order : ByteOrder} {here : Nat} {bytes : List UInt8}
    {text : List Char} (decoded : decodeFrom order none here bytes = .ok text) (nonempty : bytes ≠ []) :
    ∃ c others rest next, text = c :: others ∧
      bytes = (units c).flatMap (unitBytes order) ++ rest ∧
      decodeFrom order none next rest = .ok others := by
  match bytes with
  | [] => exact absurd rfl nonempty
  | [_] => cases decoded
  | a :: b :: rest =>
      obtain ⟨bytesEq, small⟩ := unitBytes_unit order a b
      rw [decodeFrom] at decoded
      split at decoded
      · rename_i high
        obtain ⟨low, rest', others, next, rfl, isLow', rfl, onward⟩ := exists_low_of_decodeFrom decoded
        refine ⟨_, others, rest', next, rfl, ?_, onward⟩
        rw [units_pair high isLow', List.flatMap_cons, List.flatMap_cons, List.flatMap_nil,
          List.append_nil, bytesEq]
        rfl
      · rename_i notHigh
        split at decoded
        · cases decoded
        · rename_i notLow
          obtain ⟨others, onward, rfl⟩ := Except.map_eq_ok_iff.mp decoded
          refine ⟨_, others, rest, here + 2, rfl, ?_, onward⟩
          rw [units_single small (by simpa using notHigh) (by simpa using notLow),
            List.flatMap_cons, List.flatMap_nil, List.append_nil, bytesEq]
          rfl

theorem encode_of_decodeFrom {order : ByteOrder} {here : Nat} {bytes : List UInt8}
    {text : List Char} (decoded : decodeFrom order none here bytes = .ok text) :
    encode order text = bytes := by
  induction text generalizing here bytes with
  | nil =>
      by_contra nonempty
      obtain ⟨_, _, _, _, textEq, _⟩ := exists_char_of_decodeFrom decoded (Ne.symm nonempty)
      cases textEq
  | cons c others ih =>
      have nonempty : bytes ≠ [] := by
        rintro rfl
        cases decoded
      obtain ⟨_, _, rest, next, textEq, rfl, onward⟩ := exists_char_of_decodeFrom decoded nonempty
      cases textEq
      rw [encode, List.flatMap_cons]
      exact congrArg _ (ih onward)

/-- Bytes are read as a text exactly when they are what is written for it. -/
theorem decode_eq_ok_iff {order : ByteOrder} {here : Nat} {bytes : List UInt8} {text : List Char} :
    decode order here bytes = .ok text ↔ bytes = encode order text := by
  constructor
  · intro decoded
    exact (encode_of_decodeFrom decoded).symm
  · rintro rfl
    exact decode_encode order here text

end StringAudit.Charset.Utf16
