import StringAudit.Proofs.Resource.Extraction

/-!
# Reading a text exactly

Reading a text gives what stands between the first two double quotes of each identifier line, if all of
these lines have a second double quote.  Otherwise it fails at the first one that has not, whatever follows
that line.  So a text behind another one that can be read adds its identifiers, or else fails as it does
alone, further down by the lines that stand above it.
-/

namespace StringAudit.Resource

variable {line : List Char} {ls front back : List (List Char)} {text more : String} {names : List String}

/-- The identifiers of a text that is found at a path, if the path is known. -/
def identifiersAt (path : Option String) (text : String) : Except Failure (List String) :=
  (identifiers text).mapError (·.failure path)

/-- The line has two double quotes at least. -/
def IsClosed (line : List Char) : Prop :=
  2 ≤ (Text.trim line).count '"'

instance (line : List Char) : Decidable (IsClosed line) :=
  inferInstanceAs (Decidable (_ ≤ _))

/-! ## Closed lines -/

/-- Behind its first double quote, an identifier line is closed by a second one. -/
theorem isClosed_iff {rest : List Char} (trimmed : Text.trim line = '"' :: rest) :
    IsClosed line ↔ '"' ∈ rest := by
  rw [IsClosed, trimmed, List.count_cons_self, ← List.count_pos_iff]
  omega

theorem unfinished_iff : Unfinished line ↔ isIdentifierLine line = true ∧ ¬ IsClosed line := by
  rw [isIdentifierLine_iff]
  constructor
  · rintro ⟨rest, trimmed, unquoted⟩
    exact ⟨⟨rest, trimmed⟩, (isClosed_iff trimmed).not.mpr unquoted⟩
  · rintro ⟨⟨rest, trimmed⟩, unclosed⟩
    exact ⟨rest, trimmed, (isClosed_iff trimmed).not.mp unclosed⟩

/-- A closed identifier line names what stands between its first two double quotes. -/
theorem exists_names (isLine : isIdentifierLine line = true) (closed : IsClosed line) :
    ∃ name, Names line name := by
  obtain ⟨rest, trimmed⟩ := (isIdentifierLine_iff line).mp isLine
  have split := takeWhile_quote_append ((isClosed_iff trimmed).mp closed)
  refine ⟨String.ofList (rest.takeWhile (· ≠ '"')), (rest.dropWhile (· ≠ '"')).drop 1, ?_, ?_⟩
  · rw [String.toList_ofList, trimmed, ← split]
  · rw [String.toList_ofList]
    exact quote_notMem_takeWhile rest

/-- Only identifier lines name anything. -/
theorem Names.isIdentifierLine {name : String} (named : Names line name) : isIdentifierLine line = true := by
  obtain ⟨rest, trimmed, -⟩ := named
  exact (isIdentifierLine_iff line).mpr ⟨_, trimmed⟩

/-- The identifiers of closed lines are those of the identifier lines, one by one. -/
theorem forall₂_names (closed : ∀ line ∈ ls, isIdentifierLine line = true → IsClosed line) :
    List.Forall₂ Names (ls.filter isIdentifierLine) (ls.filterMap nameOf?) := by
  induction ls with
  | nil => exact .nil
  | cons line rest ih =>
      obtain ⟨first, others⟩ := List.forall_mem_cons.mp closed
      cases isLine : isIdentifierLine line with
      | true =>
          obtain ⟨name, named⟩ := exists_names isLine (first isLine)
          rw [List.filter_cons_of_pos isLine, List.filterMap_cons_some (nameOf?_eq_some_iff.mpr named)]
          exact .cons named (ih others)
      | false =>
          have nameless : nameOf? line = none := by
            rw [Option.eq_none_iff_forall_ne_some]
            intro name named
            rw [(nameOf?_eq_some_iff.mp named).isIdentifierLine] at isLine
            cases isLine
          rw [List.filter_cons_of_neg (by simp [isLine]), List.filterMap_cons_none nameless]
          exact ih others

/-- No identifier has a double quote, or a newline if its line has none. -/
theorem Names.clean {name : String} (named : Names line name) (whole : '\n' ∉ line) :
    '"' ∉ name.toList ∧ '\n' ∉ name.toList := by
  have ⟨_, _, unquoted⟩ := named
  refine ⟨unquoted, fun mem => whole (named.quoted_isInfix.subset ?_)⟩
  exact List.mem_cons_of_mem _ (List.mem_append_left _ mem)

/-! ## Lines behind others -/

/-- An unclosed line further down. -/
def Unclosed.below (unclosed : Unclosed) (count : Nat) : Unclosed :=
  { unclosed with number := unclosed.number + count }

/-- Lines are read alike further down, but for the numbers. -/
theorem identifiersFrom_add (number count : Nat) (ls : List (List Char)) :
    identifiersFrom (number + count) ls = (identifiersFrom number ls).mapError (·.below count) := by
  induction ls generalizing number with
  | nil => rfl
  | cons line rest ih =>
      have onward := ih (number + 1)
      rw [Nat.add_right_comm] at onward
      rw [identifiersFrom, identifiersFrom]
      cases readLine line with
      | other => exact onward
      | identifier name =>
          simp only [onward]
          cases identifiersFrom (number + 1) rest <;> rfl
      | unclosed trimmed => rfl

/-- Lines in front of others are read first. -/
theorem identifiersFrom_append (number : Nat) (front back : List (List Char)) :
    identifiersFrom number (front ++ back) =
      identifiersFrom number front >>= fun names =>
        (names ++ ·) <$> identifiersFrom (number + front.length) back := by
  induction front generalizing number with
  | nil =>
      change identifiersFrom number back = ([] ++ ·) <$> identifiersFrom number back
      cases identifiersFrom number back <;> rfl
  | cons line rest ih =>
      have onward := ih (number + 1)
      rw [Nat.add_assoc, Nat.add_comm 1, ← List.length_cons] at onward
      rw [List.cons_append, identifiersFrom, identifiersFrom]
      cases readLine line with
      | other => exact onward
      | identifier name =>
          simp only [onward]
          cases identifiersFrom (number + 1) rest with
          | error unclosed => rfl
          | ok names => cases identifiersFrom (number + (line :: rest).length) back <;> rfl
      | unclosed trimmed => rfl

theorem toList_append_newline (text more : String) :
    (text ++ "\n" ++ more).toList = text.toList ++ '\n' :: more.toList := by
  simp

/-- A text behind a newline is read behind the one in front of it, which comes first. -/
theorem identifiers_append (text more : String) :
    identifiers (text ++ "\n" ++ more) =
      identifiers text >>= fun names =>
        (names ++ ·) <$> (identifiers more).mapError (·.below (Text.lines text.toList).length) := by
  rw [identifiers, toList_append_newline, Text.lines_append, identifiersFrom_append, identifiersFrom_add]
  rfl

/-! ## What reading gives -/

theorem identifiersAt_eq_ok_iff {path : Option String} :
    identifiersAt path text = .ok names ↔ identifiers text = .ok names :=
  Except.mapError_eq_ok_iff

theorem identifiersAt_eq_error_iff {path : Option String} {failure : Failure} :
    identifiersAt path text = .error failure ↔
      ∃ unclosed, identifiers text = .error unclosed ∧ unclosed.failure path = failure :=
  Except.mapError_eq_error_iff

theorem identifiersAt_of_error (path : Option String) {unclosed : Unclosed}
    (failed : identifiers text = .error unclosed) :
    identifiersAt path text = .error (unclosed.failure path) :=
  identifiersAt_eq_error_iff.mpr ⟨unclosed, failed, rfl⟩

theorem identifiersAt_of_closed (path : Option String)
    (closed : ∀ line ∈ Text.lines text.toList, isIdentifierLine line = true → IsClosed line) :
    identifiersAt path text = .ok ((Text.lines text.toList).filterMap nameOf?) := by
  have finished : ∀ line ∈ Text.lines text.toList, ¬ Unfinished line := by
    intro line mem unfinished
    obtain ⟨isLine, unclosed⟩ := unfinished_iff.mp unfinished
    exact unclosed (closed line mem isLine)
  exact identifiersAt_eq_ok_iff.mpr (identifiers_eq_ok_iff.mpr ⟨finished, rfl⟩)

/-- A text that cannot be read fails alike in front of any other one. -/
theorem identifiers_append_of_error {unclosed : Unclosed} (failed : identifiers text = .error unclosed)
    (more : String) : identifiers (text ++ "\n" ++ more) = .error unclosed := by
  rw [identifiers_append, failed]
  rfl

/-- The first line that is not closed makes a text unusable. -/
theorem identifiers_of_isFirst {above : List (List Char)}
    (first : IsFirst (fun line => isIdentifierLine line = true ∧ ¬ IsClosed line) (Text.lines text.toList)
      above line) :
    identifiers text = .error ⟨String.ofList (Text.trim line), above.length + 1⟩ := by
  simp only [← unfinished_iff] at first
  exact identifiers_eq_error_iff.mpr ⟨above, line, first, rfl⟩

/-- Reading is exact.  If all identifier lines of a text are closed, it gives what stands between the first
two double quotes of each of them, in the order of the lines and with repetitions.  Otherwise it fails at
the first identifier line that is not closed, with the path, the line without the blanks at its ends, and
its number, whatever stands behind it.  Behind a text that can be read, another one is read as it is alone,
with its lines further down. -/
theorem identifiers_exactly (path : Option String) (text : String) :
    ((∀ line ∈ Text.lines text.toList, isIdentifierLine line = true → IsClosed line) →
      ∃ names, identifiersAt path text = .ok names ∧
        List.Forall₂ Names ((Text.lines text.toList).filter isIdentifierLine) names ∧
        ∀ name ∈ names, '"' ∉ name.toList ∧ '\n' ∉ name.toList) ∧
    ((∃ line ∈ Text.lines text.toList, isIdentifierLine line = true ∧ ¬ IsClosed line) →
      ∃ above line,
        IsFirst (fun line => isIdentifierLine line = true ∧ ¬ IsClosed line) (Text.lines text.toList) above
          line ∧
        identifiersAt path text =
          .error (.unclosed (String.ofList (Text.trim line)) path (some (above.length + 1))) ∧
        ∀ more, identifiersAt path (text ++ "\n" ++ more) = identifiersAt path text) ∧
    ∀ names, identifiersAt path text = .ok names → ∀ more,
      (∀ others, identifiersAt path more = .ok others →
        identifiersAt path (text ++ "\n" ++ more) = .ok (names ++ others)) ∧
      ∀ line number, identifiersAt path more = .error (.unclosed line path (some number)) →
        identifiersAt path (text ++ "\n" ++ more) =
          .error (.unclosed line path (some (number + (Text.lines text.toList).length))) := by
  refine ⟨fun closed => ?_, ?_, fun names read more => ⟨fun others readMore => ?_, ?_⟩⟩
  · refine ⟨_, identifiersAt_of_closed path closed, forall₂_names closed, fun name mem => ?_⟩
    obtain ⟨line, lineMem, named⟩ := List.mem_filterMap.mp mem
    exact (nameOf?_eq_some_iff.mp named).clean (Text.newline_notMem_of_mem_lines lineMem)
  · rintro ⟨line, mem, unclosed⟩
    obtain ⟨above, line, first⟩ :=
      IsFirst.exists_of_mem (p := fun line => isIdentifierLine line = true ∧ ¬ IsClosed line) mem unclosed
    have failed := identifiers_of_isFirst first
    have failedAt := identifiersAt_of_error path failed
    refine ⟨above, line, first, failedAt, fun more => ?_⟩
    exact (identifiersAt_of_error path (identifiers_append_of_error failed more)).trans failedAt.symm
  · rw [identifiersAt_eq_ok_iff] at read readMore ⊢
    rw [identifiers_append, read, readMore]
    rfl
  · intro line number failed
    rw [identifiersAt_eq_ok_iff] at read
    obtain ⟨unclosed, failed, failureEq⟩ := identifiersAt_eq_error_iff.mp failed
    refine identifiersAt_eq_error_iff.mpr ⟨unclosed.below (Text.lines text.toList).length, ?_, ?_⟩
    · rw [identifiers_append, read, failed]
      rfl
    · rw [Unclosed.failure, Failure.unclosed.injEq, Option.some.injEq] at failureEq
      obtain ⟨rfl, -, rfl⟩ := failureEq
      rfl

/-- All identifier lines of `repeatedText` are closed, and the fifth line of `gappedText` is not, which is the
eighth one behind `repeatedText`. -/
theorem identifiers_exactly_gappedText :
    let path := some "ui.strings"
    (∃ names, identifiersAt path repeatedText = .ok names ∧
        List.Forall₂ Names ((Text.lines repeatedText.toList).filter isIdentifierLine) names) ∧
      (∃ above line,
        IsFirst (fun line => isIdentifierLine line = true ∧ ¬ IsClosed line) (Text.lines gappedText.toList)
          above line ∧
        identifiersAt path gappedText =
          .error (.unclosed (String.ofList (Text.trim line)) path (some (above.length + 1)))) ∧
      identifiersAt path (repeatedText ++ "\n" ++ gappedText) = .error (.unclosed "\"a" path (some 8)) := by
  intro path
  have closed : ∀ line ∈ Text.lines repeatedText.toList, isIdentifierLine line = true → IsClosed line := by
    decide +kernel
  have unclosed : ∃ line ∈ Text.lines gappedText.toList, isIdentifierLine line = true ∧ ¬ IsClosed line := by
    decide +kernel
  have failed : identifiersAt path gappedText = .error (.unclosed "\"a" path (some 5)) := by decide +kernel
  obtain ⟨reads, -, continues⟩ := identifiers_exactly path repeatedText
  obtain ⟨-, fails, -⟩ := identifiers_exactly path gappedText
  obtain ⟨names, read, named, -⟩ := reads closed
  obtain ⟨above, line, first, failedThere, -⟩ := fails unclosed
  exact ⟨⟨names, read, named⟩, ⟨above, line, first, failedThere⟩, (continues names read gappedText).2 _ 5 failed⟩

end StringAudit.Resource
