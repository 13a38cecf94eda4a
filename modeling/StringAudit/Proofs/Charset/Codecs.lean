import StringAudit.Charset.Codecs

/-!
# What names stand for

A name is known to a library if it can write the empty text under it.  This is how the program finds out.
UTF-8 is known to every library.  The names of the register stand for its character sets, and so do those of
any library that writes the same bytes under them.
-/

namespace StringAudit.Codecs

/-- The empty text can be written under a name. -/
def Knows [Codecs] (name : String) : Prop :=
  ∃ bytes, encode name "" = .ok bytes

theorem knows_utf8 [Codecs] : Knows "utf-8" :=
  ⟨_, encode_utf8 ""⟩

/-- A name stands for one of the character sets here: texts are written as in it, and torn ones not at all. -/
structure StandsFor [Codecs] (name : String) (c : Charset) : Prop where
  encode_eq : ∀ text : String, encode name text = c.encode text.toList
  encode_torn : ∀ text : Torn, ∃ fault, encode name (.torn text) = .error fault

/-- Under a name, texts that are written one behind the other are written as if they were one. -/
def Joins [Codecs] (name : String) : Prop :=
  ∀ (front back : WideText) (first second : List UInt8), encode name front = .ok first →
    encode name back = .ok second → encode name (front ++ back) = .ok (first ++ second)

/-- Where texts are joined, the empty one has no bytes. -/
theorem Joins.encode_empty [Codecs] {name : String} (joins : Joins name) (known : Knows name) :
    encode name "" = .ok [] := by
  obtain ⟨bytes, encoded⟩ := known
  have twice : bytes = bytes ++ bytes :=
    Except.ok.inj (encoded.symm.trans (joins "" "" bytes bytes encoded encoded))
  rw [encoded, List.self_eq_append_left.mp twice]

theorem standsFor_of_meaning {name : String} {c : Charset} (means : Charset.meaning name = .charset c) :
    StandsFor name c where
  encode_eq := fun text => by rw [encode_eq, Charset.encodeNamed, means]
  encode_torn := fun text => by
    change ∃ fault, Charset.encodeWide name (.torn text) = .error fault
    rw [Charset.encodeWide]
    split <;> exact ⟨_, rfl⟩

theorem knows_iff {name : String} : Knows name ↔ ∃ c, Charset.meaning name = .charset c := by
  rw [Knows]
  simp only [encode_eq, Charset.encodeNamed]
  cases Charset.meaning name with
  | charset c =>
      refine iff_of_true ?_ ⟨c, rfl⟩
      cases c with
      | bytewise set => exact ⟨[], rfl⟩
      | utf8 signed => cases signed <;> exact ⟨_, rfl⟩
      | utf16 order => cases order <;> exact ⟨_, rfl⟩
      | utf32 order => cases order <;> exact ⟨_, rfl⟩
  | _ => simp

end StringAudit.Codecs
