import Mathlib.Data.List.TakeWhile
import StringAudit.Charset.Encode

/-!
# ASCII in every character set

Every character set has the characters of ASCII, so that a line in ASCII can be written whatever the
settings say.
-/

namespace StringAudit.Charset

/-- A text of ASCII characters. -/
def Ascii (text : List Char) : Prop :=
  ∀ c ∈ text, c.toNat < 0x80

instance (text : List Char) : Decidable (Ascii text) :=
  List.decidableBAll (fun c : Char => c.toNat < 0x80) text

theorem Ascii.append {front back : String} (first : Ascii front.toList) (second : Ascii back.toList) :
    Ascii (front ++ back).toList := by
  rw [String.toList_append]
  intro c mem
  rcases List.mem_append.mp mem with mem | mem
  · exact first c mem
  · exact second c mem

theorem byte?_of_ascii (set : Bytewise) {c : Char} (ascii : c.toNat < 0x80) :
    set.byte? c = some c.toNat.toUInt8 := by
  cases set with
  | ascii => exact if_pos ascii
  | latin1 => exact if_pos (by omega)
  | windows1252 => exact if_pos (Or.inl ascii)

/-- A decimal number is in ASCII. -/
theorem ascii_toString (n : Nat) : Ascii (toString n).toList := by
  intro c mem
  have digits : (toString n).toList = Nat.toDigits 10 n := by
    rw [Nat.toString_eq_repr, Nat.repr, String.toList_ofList]
  have digit := Nat.isDigit_of_mem_toDigits (by decide) (by decide) (digits ▸ mem)
  rw [Char.isDigit, Bool.and_eq_true, decide_eq_true_eq, decide_eq_true_eq] at digit
  have atMost : c.toNat ≤ 0x39 := UInt32.le_iff_toNat_le.mp digit.2
  omega

/-- Whatever the character set, a text of ASCII characters can be written. -/
theorem exists_encode_of_ascii (c : Charset) {text : List Char} (ascii : Ascii text) :
    ∃ bytes, c.encode text = .ok bytes := by
  match c with
  | .bytewise set =>
      have complete : text.dropWhile (!set.lacks ·) = [] := by
        refine List.dropWhile_eq_nil_iff.2 fun c mem => ?_
        simp [Bytewise.lacks, byte?_of_ascii set (ascii c mem)]
      refine ⟨text.filterMap set.byte?, ?_⟩
      rw [encode, Bytewise.encode, complete]
  | .utf8 false | .utf8 true | .utf16 none | .utf16 (some _) | .utf32 none | .utf32 (some _) =>
      exact ⟨_, rfl⟩

end StringAudit.Charset
