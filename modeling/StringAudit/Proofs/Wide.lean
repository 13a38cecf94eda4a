import StringAudit.Text.Wide

/-!
# The order of wide texts

Wide texts are compared by their code points.  This is a linear order, since a wide text is told by its code
points and these by their numbers, and texts are in it as they are among each other.
-/

namespace StringAudit

/-- No character is a surrogate. -/
theorem toNat_lt_or_lt (c : Char) : c.toNat < 0xD800 ∨ 0xDFFF < c.toNat := by
  rcases c.valid with low | ⟨high, -⟩
  · exact Or.inl low
  · exact Or.inr high

theorem CodePoint.toNat_injective : Function.Injective CodePoint.toNat := by
  intro first second same
  cases first with
  | char c =>
      cases second with
      | char d => rw [Char.toNat_inj.mp same]
      | surrogate n =>
          have apart := toNat_lt_or_lt c
          change c.toNat = 0xD800 + n at same
          omega
  | surrogate m =>
      cases second with
      | char d =>
          have apart := toNat_lt_or_lt d
          change 0xD800 + m = d.toNat at same
          omega
      | surrogate n => rw [Fin.ext (Nat.add_left_cancel same)]

namespace WideText

theorem ofPointsAfter_append (front chars : List Char) (points : List CodePoint) :
    ofPointsAfter front (chars.map .char ++ points) = ofPointsAfter (front ++ chars) points := by
  induction chars generalizing front with
  | nil => rw [List.map_nil, List.nil_append, List.append_nil]
  | cons c rest ih =>
      rw [List.map_cons, List.cons_append, ofPointsAfter, ih, List.append_assoc, List.singleton_append]

/-- A wide text is told by its code points. -/
theorem ofPoints_points (text : WideText) : ofPoints text.points = text := by
  cases text with
  | sound s =>
      have whole := ofPointsAfter_append [] s.toList []
      rw [List.append_nil, List.nil_append] at whole
      rw [ofPoints, points, pointsOf, whole, ofPointsAfter, String.ofList_toList]
  | torn t =>
      rw [ofPoints, points, pointsOf, ofPointsAfter_append, List.nil_append, ofPointsAfter,
        String.ofList_toList]

theorem numbers_injective : Function.Injective numbers := by
  intro first second same
  have points := (List.map_inj_right CodePoint.toNat_injective).mp same
  rw [← ofPoints_points first, points, ofPoints_points]

instance : Std.IsLinearOrder WideText where
  le_refl := fun text => List.le_refl text.numbers
  le_trans := fun _ _ _ first second => List.le_trans first second
  le_antisymm := fun _ _ le ge => numbers_injective (List.le_antisymm le ge)
  le_total := fun first second => List.le_total first.numbers second.numbers

/-- Texts are compared by the numbers of their characters. -/
theorem lex_map_toNat_iff {front back : List Char} :
    List.Lex (· < ·) (front.map Char.toNat) (back.map Char.toNat) ↔ List.Lex (· < ·) front back := by
  induction front generalizing back with
  | nil => cases back <;> simp
  | cons c rest ih =>
      cases back with
      | nil => simp
      | cons d others =>
          rw [List.map_cons, List.map_cons, List.cons_lex_cons_iff, List.cons_lex_cons_iff, ih, Char.toNat_inj]
          rfl

theorem sound_le_sound_iff {first second : String} : sound first ≤ sound second ↔ first ≤ second := by
  have numbersEq : ∀ s : String, (sound s).numbers = s.toList.map Char.toNat := by
    intro s
    rw [numbers, points, pointsOf, List.map_map]
    rfl
  change ¬ List.Lex (· < ·) (sound second).numbers (sound first).numbers ↔ _
  rw [numbersEq, numbersEq, lex_map_toNat_iff, ← String.not_lt]
  exact not_congr String.lt_iff.symm

end WideText

end StringAudit
