import StringAudit.Proofs.CommandLine.Arguments

/-!
# Values and bare words

A value stands in its option behind an equals sign, or right behind the option.  The search for bare words
knows the options that take values by their full spellings only.  So it spares every value behind an option
that is spelled in full; behind an abbreviation it takes what looks like a bare word, though it is a value
all the same.
-/

namespace StringAudit.CommandLine

/-! ## Values -/

/-- An argument abbreviates an option with a value: it begins its spelling and no other, and it is none
itself. -/
def Abbreviates (arg : String) (v : Valued) : Prop :=
  spelled? arg = none ∧ arg.startsWith "--" = true ∧
    ∃ spelling, (spellings.filter fun s => s.1.startsWith arg) = [(spelling, .valued v)]

theorem mem_of_spelled? {arg : String} {flag : Flag} (spelled : spelled? arg = some flag) :
    (arg, flag) ∈ spellings := by
  obtain ⟨front, back, split, -⟩ := List.lookup_eq_some_iff.mp spelled
  rw [split]
  exact List.mem_append_right front List.mem_cons_self

/-- The options that the search for bare words knows are those with a value, spelled in full. -/
theorem awaitsValue_iff {arg : String} :
    awaitsValue arg = true ↔ ∃ v, spelled? arg = some (.valued v) := by
  have listed : ∀ s ∈ spellings, (s.2 matches .valued _) = true → awaitsValue s.1 = true := by
    decide +kernel
  constructor
  · intro awaits
    have mem : arg ∈ awaitingOptions := List.contains_iff_mem.mp awaits
    simp only [awaitingOptions, List.mem_cons, List.not_mem_nil, or_false] at mem
    rcases mem with rfl | rfl | rfl
    · exact ⟨.workers, by decide +kernel⟩
    · exact ⟨.config, by decide +kernel⟩
    · exact ⟨.json, by decide +kernel⟩
  · rintro ⟨v, spelled⟩
    exact listed _ (mem_of_spelled? spelled) rfl

/-- Without an equals sign, all of an argument stands in front of it. -/
theorem splitAtEquals_of_none {arg : String} (whole : (splitAtEquals arg).2 = none) :
    (splitAtEquals arg).1 = arg := by
  rw [splitAtEquals] at whole ⊢
  split at whole
  · rename_i rest
    have all := List.takeWhile_append_dropWhile (p := (· ≠ '=')) (l := arg.toList)
    rw [rest, List.append_nil] at all
    simp only [all, String.ofList_toList]
  · cases whole

/-- What an argument with two dashes may mean: all spellings that begin as it does. -/
theorem candidates_of_long {arg : String} (long : arg.startsWith "--" = true) :
    candidates arg = (spellings.filter fun s => s.1.startsWith (splitAtEquals arg).1).map fun s =>
      ⟨s.1, s.2, (splitAtEquals arg).2⟩ :=
  if_pos long

/-- An option whose value is the next argument is spelled in full or abbreviated. -/
theorem spelled_or_abbreviates_of_classify {arg : String} {v : Valued} {short : Bool}
    (classified : classify arg = .ok (.option (.valued v) short none)) :
    spelled? arg = some (.valued v) ∨ Abbreviates arg v := by
  rw [classify] at classified
  split at classified
  · cases classified
  split at classified
  · rename_i flag spelled
    cases classified
    exact Or.inl spelled
  rename_i unspelled
  split at classified
  · cases classified
  simp only at classified
  split at classified
  · -- In front of an equals sign, a value would be attached.
    rename_i attachedSpelled
    simp only [Except.ok.injEq, Word.option.injEq] at classified
    rw [classified.2.2] at attachedSpelled
    cases attachedSpelled
  split at classified
  · rename_i candidate only
    simp only [Candidate.word, Except.ok.injEq, Word.option.injEq] at classified
    obtain ⟨flagEq, -, whole⟩ := classified
    by_cases long : arg.startsWith "--" = true
    · rw [candidates_of_long long] at only
      obtain ⟨s, alone, rfl⟩ := List.map_eq_singleton_iff.mp only
      rw [splitAtEquals_of_none whole] at alone
      exact Or.inr ⟨unspelled, long, s.1, alone.trans (congrArg (fun flag => [(s.1, flag)]) flagEq)⟩
    · rw [candidates, if_neg long] at only
      obtain ⟨s, -, rfl⟩ := List.map_eq_singleton_iff.mp only
      cases whole
  · split at classified <;> cases classified
  · cases classified

theorem startsWith_dash_of_classify {arg : String} {flag : Flag} {short : Bool} {attached : Option String}
    (classified : classify arg = .ok (.option flag short attached)) : arg.startsWith "-" = true := by
  by_contra plain
  rw [classify, if_pos (by simpa using plain)] at classified
  cases classified

/-- An option is no bare word. -/
theorem not_taken_of_option {args : List String} {k : Nat} {arg : String} {flag : Flag} {short : Bool}
    {attached : Option String} (located : args[k]? = some arg)
    (classified : classify arg = .ok (.option flag short attached)) : ¬ Taken args k := by
  have dash := startsWith_dash_of_classify classified
  have storyboardPlain : storyboardWord.startsWith "-" = false := by decide +kernel
  have writePlain : writeWord.startsWith "-" = false := by decide +kernel
  rintro (⟨isWord, -⟩ | ⟨isWord, -⟩)
  · rw [Option.some.inj (located.symm.trans isWord), storyboardPlain] at dash
    cases dash
  · rw [Option.some.inj (located.symm.trans isWord), writePlain] at dash
    cases dash

/-- An option with a value, and the argument right behind it. -/
theorem awaited_succ_iff {args : List String} {i : Nat} {arg : String} (located : args[i]? = some arg) :
    Awaited args (i + 1) ↔ ∃ v, spelled? arg = some (.valued v) := by
  rw [Awaited, AwaitedFrom, located, Option.any_some, awaitsValue_iff]

/-- The search for bare words takes no value that stands in its option, and none behind an option spelled
in full.  Behind an abbreviation it takes what looks like a bare word: `storyboard` at the end, and the
first `write` that is not awaited. -/
theorem bareWords_spare_values {args : List String} {options : Options}
    (parsed : parse args = .accepted options) :
    SplitsInto args (splitBareWords args) ∧ ∃ marked, words args = .ok marked ∧
      (∀ k v value, (roles marked)[k]? = some (.attached v value) → ¬ Taken args k) ∧
      ∀ k v, (roles marked)[k]? = some (.value v) →
        ∃ i arg value, k = i + 1 ∧ args[i]? = some arg ∧ args[k]? = some value ∧
          (spelled? arg = some (.valued v) ∧ ¬ Taken args k ∨
            Abbreviates arg v ∧ (Taken args k ↔ value = storyboardWord ∧ k + 1 = args.length ∨
              value = writeWord ∧ ∀ j < k, args[j]? = some writeWord → Awaited args j)) := by
  refine ⟨splitsInto args, ?_⟩
  rw [parse] at parsed
  split at parsed
  · cases parsed
  rename_i marked wordsEq
  refine ⟨marked, wordsEq, ?_, ?_⟩
  · intro k v value located
    obtain ⟨arg, short, wordAt⟩ := serves_of_rolesFrom located
    obtain ⟨argAt, classified⟩ := option_of_words wordsEq wordAt
    exact not_taken_of_option argAt classified
  · intro k v located
    obtain ⟨i, arg, short, value, rfl, optionAt, valueAt⟩ := serves_of_rolesFrom located
    obtain ⟨valueEq, -⟩ := word_of_words wordsEq valueAt
    obtain ⟨argEq, classified⟩ := option_of_words wordsEq optionAt
    refine ⟨i, arg, value, rfl, argEq, valueEq, ?_⟩
    rcases spelled_or_abbreviates_of_classify classified with spelled | abbreviates
    · have awaited : Awaited args (i + 1) := (awaited_succ_iff argEq).mpr ⟨v, spelled⟩
      refine Or.inl ⟨spelled, ?_⟩
      rintro (⟨-, -, free⟩ | ⟨-, free, -⟩)
      · exact free awaited
      · exact free awaited
    · have free : ¬ Awaited args (i + 1) := by
        rw [awaited_succ_iff argEq, abbreviates.1]
        rintro ⟨_, ⟨⟩⟩
      refine Or.inr ⟨abbreviates, ?_⟩
      simp only [Taken, TakenAsStoryboard, TakenAsWrite, valueEq, Option.some.injEq, free,
        not_false_eq_true, and_true, true_and]

/-- Behind `--json`, the word `write` is a value and nothing else. -/
theorem bareWords_spare_values_json :
    parse ["app", "--json", "write"] = .accepted { roots := ["app"], json := .given "write" } ∧
      ¬ Taken ["app", "--json", "write"] 2 := by
  have parsed : parse ["app", "--json", "write"] =
      .accepted { roots := ["app"], json := .given "write" } := by
    decide +kernel
  have wordsEq : words ["app", "--json", "write"] = .ok [("app", .operand),
      ("--json", .option (.valued .json) false none), ("write", .operand)] := by
    decide +kernel
  obtain ⟨-, marked, markedEq, -, values⟩ := bareWords_spare_values parsed
  cases wordsEq.symm.trans markedEq
  obtain ⟨i, arg, _, place, argEq, -, ⟨-, spared⟩ | ⟨⟨unspelled, -⟩, -⟩⟩ := values 2 .json rfl
  · exact ⟨parsed, spared⟩
  · obtain rfl : 1 = i := Nat.succ.inj place
    cases argEq
    cases unspelled

/-- Behind `--js`, the word `write` is the value of `--json` too, but it is taken for the bare word: the
option gets the root behind it, and the run cleans. -/
theorem bareWords_take_abbreviated_value :
    let args := ["--js", "write", "app", "lib"]
    parse args = .accepted { roots := ["app", "lib"], json := .given "write" } ∧
      (∃ marked, words args = .ok marked ∧ (roles marked)[1]? = some (.value .json)) ∧ Taken args 1 ∧
      splitBareWords args = ⟨["--js", "app", "lib"], false, true⟩ ∧
      request args = .accepted { roots := ["lib"], json := .given "app", write := true } := by
  intro args
  refine ⟨by decide +kernel, ?_, by decide +kernel, by decide +kernel, by decide +kernel⟩
  exact ⟨[("--js", .option (.valued .json) false none), ("write", .operand), ("app", .operand),
    ("lib", .operand)], by decide +kernel, rfl⟩

end StringAudit.CommandLine
