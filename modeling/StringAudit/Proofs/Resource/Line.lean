import StringAudit.Resource.Line

/-!
# What a line names

`Names` is the grammar of an identifier line: blanks, a double quote, the identifier, and a second
double quote.  `readLine` reads exactly this grammar: it returns an identifier for the lines that
have one, and takes a line for unclosed when its first double quote is the only one.
-/

namespace StringAudit.Resource

/-- The line, without the blanks at its ends, starts with the identifier in double quotes. -/
def Names (line : List Char) (identifier : String) : Prop :=
  ∃ rest, Text.trim line = '"' :: (identifier.toList ++ '"' :: rest) ∧ '"' ∉ identifier.toList

/-- The line, without the blanks at its ends, starts with a double quote and has no other one. -/
def Unfinished (line : List Char) : Prop :=
  ∃ rest, Text.trim line = '"' :: rest ∧ '"' ∉ rest

/-- A text up to the first double quote, the quote, and what follows. -/
theorem takeWhile_quote_append {text : List Char} (quoted : '"' ∈ text) :
    text = text.takeWhile (· ≠ '"') ++ '"' :: (text.dropWhile (· ≠ '"')).drop 1 := by
  induction text with
  | nil => simp at quoted
  | cons c rest ih =>
      by_cases isQuote : c = '"'
      · simp [isQuote]
      · have inRest : '"' ∈ rest := by
          simpa [Ne.symm isQuote] using quoted
        simpa [isQuote] using ih inRest

theorem quote_notMem_takeWhile (text : List Char) : '"' ∉ text.takeWhile (· ≠ '"') := by
  intro mem
  have distinct := List.all_eq_true.mp (List.all_takeWhile (p := (· ≠ '"')) (l := text)) _ mem
  simp at distinct

theorem takeWhile_eq_of_append_quote {name rest : List Char} (unquoted : '"' ∉ name) :
    (name ++ '"' :: rest).takeWhile (· ≠ '"') = name := by
  have plain : ∀ c ∈ name, decide (c ≠ '"') = true := by
    intro c mem
    rw [decide_eq_true_iff]
    rintro rfl
    exact unquoted mem
  rw [List.takeWhile_append_of_pos plain]
  simp

theorem upToQuote?_cons (c : Char) (rest : List Char) :
    upToQuote? (c :: rest) =
      if '"' ∈ rest then some (rest.takeWhile (· ≠ '"')) else none := by
  simp [upToQuote?]

theorem isIdentifierLine_iff (line : List Char) :
    isIdentifierLine line = true ↔ ∃ rest, Text.trim line = '"' :: rest := by
  rw [isIdentifierLine, decide_eq_true_iff]
  cases Text.trim line with
  | nil => simp
  | cons c rest => simp

/-- Reading a line gives an identifier exactly when the line names it. -/
theorem readLine_eq_identifier_iff {line : List Char} {identifier : String} :
    readLine line = .identifier identifier ↔ Names line identifier := by
  constructor
  · intro read
    simp only [readLine] at read
    split at read
    · rename_i isLine
      obtain ⟨rest, trimmed⟩ := (isIdentifierLine_iff line).mp isLine
      rw [trimmed, upToQuote?_cons] at read
      by_cases quoted : '"' ∈ rest
      · rw [if_pos quoted, Reading.identifier.injEq] at read
        subst identifier
        refine ⟨(rest.dropWhile (· ≠ '"')).drop 1, ?_, ?_⟩
        · rw [trimmed, String.toList_ofList]
          exact congrArg _ (takeWhile_quote_append quoted)
        · rw [String.toList_ofList]
          exact quote_notMem_takeWhile rest
      · simp [quoted] at read
    · contradiction
  · rintro ⟨rest, trimmed, unquoted⟩
    have isLine := (isIdentifierLine_iff line).mpr ⟨_, trimmed⟩
    simp only [readLine, isLine, if_true, trimmed, upToQuote?_cons]
    rw [if_pos (by simp), takeWhile_eq_of_append_quote unquoted]
    simp

/-- Reading a line finds it unclosed exactly when its first double quote is the only one. -/
theorem readLine_eq_unclosed_iff {line trimmed : List Char} :
    readLine line = .unclosed trimmed ↔ Unfinished line ∧ trimmed = Text.trim line := by
  constructor
  · intro read
    simp only [readLine] at read
    split at read
    · rename_i isLine
      obtain ⟨rest, trimmedEq⟩ := (isIdentifierLine_iff line).mp isLine
      rw [trimmedEq, upToQuote?_cons] at read
      by_cases quoted : '"' ∈ rest
      · simp [quoted] at read
      · rw [if_neg quoted, Reading.unclosed.injEq] at read
        exact ⟨⟨rest, trimmedEq, quoted⟩, by rw [trimmedEq, ← read]⟩
    · contradiction
  · rintro ⟨⟨rest, trimmedEq, unquoted⟩, rfl⟩
    have isLine := (isIdentifierLine_iff line).mpr ⟨_, trimmedEq⟩
    simp [readLine, isLine, trimmedEq, upToQuote?_cons, unquoted]

theorem trim_isInfix (line : List Char) : Text.trim line <:+: line := by
  have start : Text.trimStart line <:+ line := List.dropWhile_suffix _
  have stop : Text.trimEnd (Text.trimStart line) <+: Text.trimStart line := by
    have reversed := List.dropWhile_suffix (l := (Text.trimStart line).reverse) Text.isBlank
    rwa [← List.reverse_prefix, List.reverse_reverse] at reversed
  exact stop.isInfix.trans start.isInfix

/-- A line holds the identifier that it names in double quotes. -/
theorem Names.quoted_isInfix {line : List Char} {identifier : String} (named : Names line identifier) :
    '"' :: (identifier.toList ++ ['"']) <:+: line := by
  obtain ⟨rest, trimmed, _⟩ := named
  have front : '"' :: (identifier.toList ++ ['"']) <:+: Text.trim line := by
    refine ⟨[], rest, ?_⟩
    simp [trimmed]
  exact front.trans (trim_isInfix line)

/-- The empty line says nothing. -/
@[simp]
theorem readLine_nil : readLine [] = .other :=
  rfl

end StringAudit.Resource
