import StringAudit.Proofs.Settings.Outcome

/-!
# Which values make settings

The grammar of settings is stated apart from the checks: which values each key may have, and what it then
sets.  The character set is one that the library knows, whichever library it is.  A list of texts may be left
empty by the empty value.  The checks accept some more: any value that counts as nothing passes for an empty
list, also a value of a wrong type, such as `false` or zero.  Apart from these the checks accept exactly the
grammar.  All else is refused, unless it is unfit for a check.
-/

namespace StringAudit.Settings

open Yaml (Value)

/-! ## The grammar -/

/-- The value of the number of workers, if there is one, and the number that it sets. -/
inductive WorkersFrom : Option Value → Option Int → Prop
  | unset : WorkersFrom none none
  | null : WorkersFrom (some .null) none
  | given {n : Int} (positive : 1 ≤ n) : WorkersFrom (some (.int n)) (some n)

/-- The value that names the character set, if there is one, and the name that it sets. -/
inductive CharsetFrom [Codecs] : Option Value → String → Prop
  | unset : CharsetFrom none usualCharset
  | given {name : String} (known : Codecs.Knows name) : CharsetFrom (some (.text name)) name

/-- The value of a list of texts, if there is one, and the texts that it sets, where some values stand for
no texts at all. -/
inductive TextsFrom (empty : Value → Prop) : Option Value → List WideText → Prop
  | unset : TextsFrom empty none []
  | empty {value : Value} (isEmpty : empty value) : TextsFrom empty (some value) []
  | given (texts : List WideText) : TextsFrom empty (some (.sequence (texts.map .ofWide))) texts

/-- Entries that set nothing but settings, each to one of its values. -/
structure MadeFrom [Codecs] (empty : Value → Prop) (entries : List (Value × Value)) (settings : Settings) :
    Prop where
  known : ∀ entry ∈ entries, ∃ key ∈ keys, entry.1.text? = some key
  workers : WorkersFrom (Value.valueOf? "workers" entries) settings.workers
  charset : CharsetFrom (Value.valueOf? "encoding" entries) settings.charset
  ignoreList : TextsFrom empty (Value.valueOf? "ignore_dirs" entries) settings.ignoreList
  allowList : TextsFrom empty (Value.valueOf? "allowlist" entries) settings.allowList

/-- A value that describes settings: no value at all, or a mapping. -/
inductive Describes [Codecs] (empty : Value → Prop) : Value → Settings → Prop
  | null : Describes empty .null {}
  | mapping {entries : List (Value × Value)} {settings : Settings}
      (made : MadeFrom empty entries settings) : Describes empty (.mapping entries) settings

/-- The values of a wrong type that count as nothing. -/
inductive Hollow : Value → Prop
  | false : Hollow (.bool false)
  | zero : Hollow (.int 0)
  | zeroFloat : Hollow (.float true)
  | noText : Hollow (.text "")
  | noBytes : Hollow (.binary true)
  | noEntries : Hollow (.mapping [])
  | noMembers : Hollow (.set [])

/-- The values that pass for an empty list of texts. -/
def PassesForEmpty (value : Value) : Prop :=
  value = .null ∨ Hollow value

/-- A mapping that has a value of a wrong type for a list of texts, which counts as nothing. -/
inductive HoldsHollow : Value → Prop
  | ignored {entries : List (Value × Value)} {wrong : Value}
      (found : Value.valueOf? "ignore_dirs" entries = some wrong) (hollow : Hollow wrong) :
      HoldsHollow (.mapping entries)
  | allowed {entries : List (Value × Value)} {wrong : Value}
      (found : Value.valueOf? "allowlist" entries = some wrong) (hollow : Hollow wrong) :
      HoldsHollow (.mapping entries)

/-! ## One key -/

theorem workersOf_eq_ok_iff {entry : Option Value} {workers : Option Int} :
    workersOf entry = .ok workers ↔ WorkersFrom entry workers := by
  constructor
  · intro accepted
    rw [workersOf.eq_def] at accepted
    split at accepted
    · cases accepted
      exact .unset
    · cases accepted
      exact .null
    · split at accepted
      · rename_i positive
        cases accepted
        exact .given positive
      · cases accepted
    · cases accepted
  · intro described
    cases described with
    | unset => rfl
    | null => rfl
    | given positive => exact if_pos positive

theorem charsetOf_text_eq_ok_iff [Codecs] {name result : String} :
    charsetOf (some (.text name)) = .ok result ↔ Codecs.Knows name ∧ name = result := by
  rw [charsetOf, Option.getD_some, Codecs.Knows]
  dsimp only
  cases Codecs.encode name "" <;> simp

theorem charsetOf_eq_ok_iff [Codecs] {entry : Option Value} {name : String} :
    charsetOf entry = .ok name ↔ CharsetFrom entry name := by
  constructor
  · intro accepted
    cases entry with
    | none =>
        obtain ⟨-, rfl⟩ := (@charsetOf_text_eq_ok_iff _ usualCharset name).mp accepted
        exact .unset
    | some value =>
        cases value with
        | text given =>
            obtain ⟨known, rfl⟩ := charsetOf_text_eq_ok_iff.mp accepted
            exact .given known
        | _ => cases accepted
  · intro described
    cases described with
    | unset => exact charsetOf_text_eq_ok_iff.mpr ⟨checked_usual.known, rfl⟩
    | given known => exact charsetOf_text_eq_ok_iff.mpr ⟨known, rfl⟩

/-- What counts as nothing is the empty value, a value of a wrong type, or the empty list. -/
theorem isVoid_iff {value : Value} :
    value.isVoid = true ↔ PassesForEmpty value ∨ value = .sequence [] := by
  constructor
  · intro void
    cases value with
    | null => exact Or.inl (Or.inl rfl)
    | bool b =>
        obtain rfl := Bool.not_eq_true' b |>.mp void
        exact Or.inl (Or.inr .false)
    | int n =>
        obtain rfl := beq_iff_eq.mp void
        exact Or.inl (Or.inr .zero)
    | float isZero =>
        obtain rfl : isZero = true := void
        exact Or.inl (Or.inr .zeroFloat)
    | text s =>
        obtain rfl := String.isEmpty_iff.mp void
        exact Or.inl (Or.inr .noText)
    | torn t => cases void
    | binary isEmpty =>
        obtain rfl : isEmpty = true := void
        exact Or.inl (Or.inr .noBytes)
    | timestamp => cases void
    | sequence items =>
        obtain rfl := List.isEmpty_iff.mp void
        exact Or.inr rfl
    | mapping entries =>
        obtain rfl := List.isEmpty_iff.mp void
        exact Or.inl (Or.inr .noEntries)
    | set members =>
        obtain rfl := List.isEmpty_iff.mp void
        exact Or.inl (Or.inr .noMembers)
    | enclosing => cases void
  · rintro ((rfl | hollow) | rfl)
    · rfl
    · cases hollow <;> rfl
    · rfl

/-- The items of a list are texts exactly if the list is one of texts. -/
theorem mapM_wide?_eq_some_iff {items : List Value} {texts : List WideText} :
    items.mapM Value.wide? = some texts ↔ items = texts.map .ofWide := by
  rw [mapM_eq_some_iff]
  induction items generalizing texts with
  | nil => cases texts <;> simp
  | cons item rest ih =>
      cases texts with
      | nil => simp
      | cons text others =>
          rw [List.map_cons, List.map_cons, List.map_cons, List.cons.injEq, List.cons.injEq, ih]
          refine and_congr_left fun _ => ?_
          cases item <;> cases text <;> simp [Value.wide?, Value.ofWide]

theorem textsOf_of_isVoid {key : String} {value : Value} (void : value.isVoid = true) :
    textsOf key (some value) = .ok [] :=
  if_pos void

theorem textsOf_sequence {key : String} {items : List Value} :
    textsOf key (some (.sequence items)) =
      ((items.mapM Value.wide?).map .ok).getD (.error (.notTextList key)) := by
  cases items with
  | nil => rfl
  | cons first others =>
      rw [textsOf.eq_def]
      exact if_neg Bool.false_ne_true

/-- Only lists, and values that count as nothing, are accepted as lists of texts. -/
theorem isVoid_or_sequence_of_textsOf {key : String} {value : Value} {texts : List WideText}
    (accepted : textsOf key (some value) = .ok texts) :
    value.isVoid = true ∨ ∃ items, value = .sequence items := by
  rw [textsOf.eq_def] at accepted
  dsimp only at accepted
  split at accepted
  · rename_i void
    exact Or.inl void
  · split at accepted
    · exact Or.inr ⟨_, rfl⟩
    · cases accepted

theorem textsOf_sequence_eq_ok_iff {key : String} {items : List Value} {texts : List WideText} :
    textsOf key (some (.sequence items)) = .ok texts ↔ items = texts.map .ofWide := by
  rw [textsOf_sequence, ← mapM_wide?_eq_some_iff]
  cases items.mapM Value.wide? <;> simp

/-- A list of texts is accepted as the grammar says, if every value that counts as nothing passes for the
empty list. -/
theorem textsOf_eq_ok_iff {key : String} {entry : Option Value} {texts : List WideText} :
    textsOf key entry = .ok texts ↔ TextsFrom PassesForEmpty entry texts := by
  constructor
  · intro accepted
    cases entry with
    | none =>
        cases accepted
        exact .unset
    | some value =>
        rcases isVoid_or_sequence_of_textsOf accepted with void | ⟨items, rfl⟩
        · cases (textsOf_of_isVoid void).symm.trans accepted
          rcases isVoid_iff.mp void with passes | rfl
          · exact .empty passes
          · exact .given []
        · obtain rfl := textsOf_sequence_eq_ok_iff.mp accepted
          exact .given texts
  · intro described
    cases described with
    | unset => rfl
    | empty passes => exact textsOf_of_isVoid (isVoid_iff.mpr (Or.inl passes))
    | given => exact textsOf_sequence_eq_ok_iff.mpr rfl

/-! ## All keys -/

section Codecs

variable [Codecs]

theorem ofEntries_eq_ok_iff {entries : List (Value × Value)} {settings : Settings} :
    ofEntries entries = .ok settings ↔ MadeFrom PassesForEmpty entries settings := by
  constructor
  · intro accepted
    have known : strangeKeys? entries = some [] := by
      rw [ofEntries] at accepted
      split at accepted
      · cases accepted
      · assumption
      · cases accepted
    rw [ofEntries_eq_of_known known] at accepted
    obtain ⟨workers, workersEq, accepted⟩ := Except.bind_eq_ok_iff.mp accepted
    obtain ⟨charset, charsetEq, accepted⟩ := Except.bind_eq_ok_iff.mp accepted
    obtain ⟨ignoreList, ignoredEq, accepted⟩ := Except.bind_eq_ok_iff.mp accepted
    obtain ⟨allowList, allowedEq, accepted⟩ := Except.bind_eq_ok_iff.mp accepted
    obtain rfl := Except.ok.inj accepted
    exact {
      known := strangeKeys?_eq_nil_iff.mp known
      workers := workersOf_eq_ok_iff.mp (Except.mapError_eq_ok_iff.mp workersEq)
      charset := charsetOf_eq_ok_iff.mp charsetEq
      ignoreList := textsOf_eq_ok_iff.mp (Except.mapError_eq_ok_iff.mp ignoredEq)
      allowList := textsOf_eq_ok_iff.mp (Except.mapError_eq_ok_iff.mp allowedEq) }
  · intro made
    rw [ofEntries_eq_of_known (strangeKeys?_eq_nil_iff.mpr made.known),
      workersOf_eq_ok_iff.mpr made.workers, charsetOf_eq_ok_iff.mpr made.charset,
      textsOf_eq_ok_iff.mpr made.ignoreList, textsOf_eq_ok_iff.mpr made.allowList]
    rfl

/-- A value makes exactly the settings that it describes, if every value that counts as nothing passes for
an empty list of texts. -/
theorem ofValue_eq_ok_iff {value : Value} {settings : Settings} :
    ofValue value = .ok settings ↔ Describes PassesForEmpty value settings := by
  constructor
  · intro accepted
    rw [ofValue.eq_def] at accepted
    split at accepted
    · cases accepted
      exact .null
    · exact .mapping (ofEntries_eq_ok_iff.mp accepted)
    · cases accepted
  · intro described
    cases described with
    | null => rfl
    | mapping made => exact ofEntries_eq_ok_iff.mpr made

/-! ## The grammar and the checks -/

omit [Codecs] in
/-- A list of texts that the checks accept is one of the grammar, unless its value counts as nothing and
has a wrong type. -/
theorem textsFrom_null_iff {entry : Option Value} {texts : List WideText} :
    TextsFrom (· = .null) entry texts ↔
      TextsFrom PassesForEmpty entry texts ∧ ∀ wrong, entry = some wrong → ¬ Hollow wrong := by
  constructor
  · intro described
    cases described with
    | unset =>
        constructor
        · exact .unset
        · intro wrong found
          cases found
    | empty isNull =>
        constructor
        · exact .empty (Or.inl isNull)
        · intro wrong found hollow
          subst isNull
          cases found
          cases hollow
    | given =>
        constructor
        · exact .given texts
        · intro wrong found hollow
          cases found
          cases hollow
  · rintro ⟨accepted, sound⟩
    cases accepted with
    | unset => exact .unset
    | empty passes =>
        rcases passes with isNull | hollow
        · exact .empty isNull
        · exact absurd hollow (sound _ rfl)
    | given => exact .given texts

/-- Of the values that the checks accept, those hold to the grammar that have no value of a wrong type for a
list of texts. -/
theorem describes_null_iff {value : Value} {settings : Settings} :
    Describes (· = .null) value settings ↔
      Describes PassesForEmpty value settings ∧ ¬ HoldsHollow value := by
  constructor
  · intro described
    cases described with
    | null =>
        constructor
        · exact .null
        · intro holds
          cases holds
    | mapping made =>
        obtain ⟨ignoreList, ignoredSound⟩ := textsFrom_null_iff.mp made.ignoreList
        obtain ⟨allowList, allowedSound⟩ := textsFrom_null_iff.mp made.allowList
        constructor
        · exact .mapping { made with ignoreList, allowList }
        · intro holds
          cases holds with
          | ignored found hollow => exact ignoredSound _ found hollow
          | allowed found hollow => exact allowedSound _ found hollow
  · rintro ⟨accepted, sound⟩
    cases accepted with
    | null => exact .null
    | mapping made =>
        have ignoreList := textsFrom_null_iff.mpr
          ⟨made.ignoreList, fun _ found hollow => sound (.ignored found hollow)⟩
        have allowList := textsFrom_null_iff.mpr
          ⟨made.allowList, fun _ found hollow => sound (.allowed found hollow)⟩
        exact .mapping { made with ignoreList, allowList }

/-- A value is refused exactly if it describes no settings and is fit for the checks. -/
theorem refused_iff {value : Value} :
    (∃ r : Refusal, ofValue value = .error r.failure) ↔
      (¬ ∃ settings, Describes PassesForEmpty value settings) ∧ ¬ ∃ cause, Unfit value cause := by
  simp only [← ofValue_eq_ok_iff, ← ofValue_eq_breakdown_iff]
  constructor
  · rintro ⟨r, refused⟩
    constructor
    · rintro ⟨settings, accepted⟩
      cases refused.symm.trans accepted
    · rintro ⟨cause, broken⟩
      exact r.failure_ne cause (Except.error.inj (refused.symm.trans broken))
  · rintro ⟨notAccepted, notBroken⟩
    rcases (ofValue_settles value).cases with accepted | refused | broken
    · exact absurd accepted notAccepted
    · exact refused
    · exact absurd broken notBroken

/-- What the checks make of a value, whatever it is, with any library of character sets.  They accept what
the grammar describes, with the settings that it describes, and beyond that only mappings that have, for a
list of texts, a value of a wrong type that counts as nothing.  They break down on unfit values, and refuse
all others. -/
theorem ofValue_exactly (value : Value) :
    (∀ settings, ofValue value = .ok settings ↔ Describes PassesForEmpty value settings) ∧
      (∀ settings, Describes (· = .null) value settings ↔
        ofValue value = .ok settings ∧ ¬ HoldsHollow value) ∧
      (∀ cause, ofValue value = .error (.breakdown cause) ↔ Unfit value cause) ∧
      ((∃ r : Refusal, ofValue value = .error r.failure) ↔
        (¬ ∃ settings, Describes PassesForEmpty value settings) ∧ ¬ ∃ cause, Unfit value cause) := by
  have documented : ∀ settings, Describes (· = .null) value settings ↔
      ofValue value = .ok settings ∧ ¬ HoldsHollow value := by
    intro settings
    rw [ofValue_eq_ok_iff]
    exact describes_null_iff
  exact ⟨fun _ => ofValue_eq_ok_iff, documented, fun _ => ofValue_eq_breakdown_iff, refused_iff⟩

end Codecs

/-- `false` passes for a list of texts, which it is not, and a name of a character set that holds U+0000
is not refused. -/
theorem false_passes_for_texts :
    ofValue (.mapping [(.text "allowlist", .bool false)]) = .ok {} ∧
      (¬ ∃ settings, Describes (· = .null) (.mapping [(.text "allowlist", .bool false)]) settings) ∧
      ofValue (.mapping [(.text "encoding", .text "utf-8\x00")]) =
        .error (.breakdown .unusableCharset) := by
  have holds : HoldsHollow (.mapping [(.text "allowlist", .bool false)]) := .allowed rfl .false
  have undescribed : ¬ ∃ settings,
      Describes (· = .null) (.mapping [(.text "allowlist", .bool false)]) settings := by
    rintro ⟨settings, described⟩
    exact (describes_null_iff.mp described).2 holds
  exact ⟨by decide +kernel, undescribed, by decide +kernel⟩

end StringAudit.Settings
