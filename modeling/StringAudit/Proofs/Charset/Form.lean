import StringAudit.Proofs.Charset.Reading

/-!
# The forms in which a text is stored

A text can be stored in UTF-8 or, behind a byte order mark, in UTF-8 or in UTF-16 of either byte order.
Reading tells the forms apart by the mark: behind a mark any text is read as it is, and without one
only a character U+FEFF in front gets lost, which is taken for a mark.
-/

namespace StringAudit.TextFile

/-- A form in which a text is stored. -/
inductive Form
  /-- UTF-8 without a mark. -/
  | plain
  /-- UTF-8 behind its mark. -/
  | signed
  /-- UTF-16 in a byte order, behind its mark. -/
  | wide (order : ByteOrder)
  deriving DecidableEq, Repr

namespace Form

/-- The bytes of a text in a form. -/
def bytes : Form → List Char → List UInt8
  | plain, text => Charset.Utf8.encode text
  | signed, text => Charset.Utf8.signature ++ Charset.Utf8.encode text
  | wide order, text => Charset.Utf16.signature order ++ Charset.Utf16.encode order text

/-- What is read of a text in a form. -/
def shows : Form → List Char → List Char
  | plain, text => if text.head? = some mark then text.tail else text
  | _, text => text

theorem unmarked_eq (text : List Char) : unmarked text = plain.shows text := by
  cases text with
  | nil => rfl
  | cons c rest => simp [unmarked, shows]

/-- Every form is recognised, and read as the text that it stores, but for a mark in front. -/
theorem decode_bytes (form : Form) (text : List Char) :
    decode (form.bytes text) = .ok (form.shows text) := by
  match form with
  | plain => exact unmarked_eq text ▸ decode_utf8 text
  | signed => exact decode_signed_utf8 text
  | wide .littleEndian => exact decode_utf16 text
  | wide .bigEndian => exact Charset.Utf16.decode_encode .bigEndian 2 text

/-- All forms of a text without a mark in front are read alike. -/
theorem shows_of_unmarked (form : Form) {text : List Char} (unmarked : text.head? ≠ some mark) :
    form.shows text = text := by
  cases form with
  | plain => exact if_neg unmarked
  | signed => rfl
  | wide order => rfl

end Form

/-- Two sequences of bytes are the same, or forms of one text, which has no mark in front. -/
def SameText (old new : List UInt8) : Prop :=
  new = old ∨ ∃ (text : List Char) (form form' : Form), text.head? ≠ some mark ∧
    old = form.bytes text ∧ new = form'.bytes text

/-- The form in which a text is stored does not matter to what is read, nor to what is wrong with it. -/
theorem SameText.decode_eq {old new : List UInt8} (same : SameText old new) : decode new = decode old := by
  rcases same with rfl | ⟨text, form, form', unmarked, rfl, rfl⟩
  · rfl
  · rw [form.decode_bytes, form'.decode_bytes, form.shows_of_unmarked unmarked,
      form'.shows_of_unmarked unmarked]

end StringAudit.TextFile
