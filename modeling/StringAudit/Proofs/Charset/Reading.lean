import StringAudit.Charset.Encode
import StringAudit.Proofs.Charset.Utf16
import StringAudit.Text.Lines
import StringAudit.TextFile

/-!
# Which texts are read back

A file written with a mark in front is read back as the text that was written.  A file written in
UTF-8 without a mark is read back as well, unless the text itself starts with the character U+FEFF,
which is then taken for a mark.
-/

namespace StringAudit.TextFile

/-- The character that stands for a byte order mark. -/
def mark : Char :=
  '\uFEFF'

/-- The text without a mark in front. -/
def unmarked : List Char → List Char
  | [] => []
  | c :: rest => if c = mark then rest else c :: rest

theorem unmarked_eq_self {text : List Char} (plain : text.head? ≠ some mark) :
    unmarked text = text := by
  cases text with
  | nil => rfl
  | cons c rest =>
      have different : c ≠ mark := by simpa using plain
      rw [unmarked, if_neg different]

/-- What is written in UTF-16 with a mark is read back. -/
theorem decode_utf16 (text : List Char) :
    decode (Charset.Utf16.signature .littleEndian ++ Charset.Utf16.encode .littleEndian text) =
      .ok text :=
  Charset.Utf16.decode_encode .littleEndian 2 text

/-- What is written in UTF-8 with a mark is read back. -/
theorem decode_signed_utf8 (text : List Char) :
    decode (Charset.Utf8.signature ++ Charset.Utf8.encode text) = .ok text :=
  Charset.Utf8.decode_encode text

/-- What is written in UTF-8 is read back, but for a mark in front. -/
theorem decode_utf8 (text : List Char) :
    decode (Charset.Utf8.encode text) = .ok (unmarked text) := by
  cases text with
  | nil => rfl
  | cons c rest =>
      by_cases marked : c = mark
      · subst marked
        rw [unmarked, if_pos rfl]
        exact decode_signed_utf8 rest
      · have read : Charset.Utf8.decode (Charset.Utf8.encode (c :: rest)) = .ok (c :: rest) :=
          Charset.Utf8.decode_encode (c :: rest)
        rw [unmarked, if_neg marked]
        generalize Charset.Utf8.encode (c :: rest) = bytes at read
        rw [decode]
        · exact read
        · rintro tail rfl
          cases read
        · rintro tail rfl
          cases read
        · -- these three bytes are the mark itself
          rintro tail rfl
          obtain ⟨next, first⟩ := Charset.Utf8.decodeFrom_encodeChar mark 0 tail
          have firstEq : (mark :: ·) <$> Charset.Utf8.decodeFrom none next tail = .ok (c :: rest) :=
            first.symm.trans read
          cases onward : Charset.Utf8.decodeFrom none next tail with
          | error fault =>
              rw [onward] at firstEq
              cases firstEq
          | ok others =>
              rw [onward] at firstEq
              cases firstEq
              exact marked rfl

/-! ## Character sets by name -/

/-- Every text can be written in the character set of a name, and is read back with the same lines,
but for the first `n` of them. -/
def Returns (charset : String) (n : Nat) : Prop :=
  ∀ text : String, ∃ bytes again, Charset.encodeNamed charset text = .ok bytes ∧
    decode bytes = .ok again ∧
    (Text.lines again).drop n = (Text.lines text.toList).drop n

theorem encodeNamed_eq {charset : String} {c : Charset} (means : Charset.meaning charset = .charset c)
    (text : String) : Charset.encodeNamed charset text = c.encode text.toList := by
  rw [Charset.encodeNamed, means]

/-- The character sets that put a mark in front of every text, and can write every text. -/
def Marks (c : Charset) : Prop :=
  c = .utf16 none ∨ c = .utf8 true

/-- What is written with a mark in front is read back. -/
theorem decode_encodeNamed {charset : String} {c : Charset}
    (means : Charset.meaning charset = .charset c) (marks : Marks c) (text : String) :
    ∃ bytes, Charset.encodeNamed charset text = .ok bytes ∧ decode bytes = .ok text.toList := by
  rw [encodeNamed_eq means]
  rcases marks with rfl | rfl
  · exact ⟨_, rfl, decode_utf16 text.toList⟩
  · exact ⟨_, rfl, decode_signed_utf8 text.toList⟩

theorem returns_of_marks {charset : String} {c : Charset}
    (means : Charset.meaning charset = .charset c) (marks : Marks c) : Returns charset 0 := by
  intro text
  obtain ⟨bytes, encoded, decoded⟩ := decode_encodeNamed means marks text
  exact ⟨bytes, text.toList, encoded, decoded, rfl⟩

theorem lines_unmarked (text : List Char) :
    (Text.lines (unmarked text)).drop 1 = (Text.lines text).drop 1 := by
  cases text with
  | nil => rfl
  | cons c rest =>
      rw [unmarked]
      split
      · rename_i marked
        obtain ⟨first, others, restLines⟩ := List.exists_cons_of_ne_nil (Text.lines_ne_nil rest)
        have whole : Text.lines (c :: rest) = (c :: first) :: others := by
          have different : (c == '\n') = false := by
            rw [marked]
            decide
          rw [Text.lines] at restLines ⊢
          rw [List.splitOn_cons_eq_if_modifyHead, different, restLines]
          rfl
        rw [whole, restLines]
        rfl
      · rfl

theorem returns_of_utf8 {charset : String}
    (means : Charset.meaning charset = .charset (.utf8 false)) : Returns charset 1 := by
  intro text
  exact ⟨_, _, encodeNamed_eq means text, decode_utf8 text.toList, lines_unmarked text.toList⟩

end StringAudit.TextFile
