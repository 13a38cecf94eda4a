import StringAudit.CommandLine.Parse
import StringAudit.Proofs.Collection.Traversal
import StringAudit.Proofs.CommandLine.BareWords

/-!
# The texts that options hold

An argument has its role by the word at its position: a value that is attached stands in its option, and any
other right behind one.  So every text that options hold is an argument, or the end of the argument that the
option stands in, and if the arguments can be used as paths, then so can the roots and the paths in the
options.
-/

namespace StringAudit.CommandLine

/-- The texts of options can be used as paths. -/
structure Options.Usable (options : Options) : Prop where
  roots : ∀ root ∈ options.roots, Disk.isUsable root = true
  config : ∀ path, options.config = .given path → Disk.isUsable path = true
  json : ∀ path, options.json = .given path → Disk.isUsable path = true

theorem isUsable_of_isSuffix {arg tail : String} (suffix : tail.toList <:+ arg.toList)
    (usable : Disk.isUsable arg = true) : Disk.isUsable tail = true :=
  Collection.isUsable_iff.mpr fun mem => Collection.isUsable_iff.mp usable (suffix.subset mem)

/-! ## Words -/

theorem isSuffix_of_splitAtEquals {arg value : String} (split : (splitAtEquals arg).2 = some value) :
    value.toList <:+ arg.toList := by
  have suffix := List.dropWhile_suffix (l := arg.toList) (· ≠ '=')
  rw [splitAtEquals] at split
  split at split
  · cases split
  · rename_i equals tail rest
    cases split
    rw [String.toList_ofList]
    exact (List.suffix_cons equals tail).trans (rest ▸ suffix)

theorem isSuffix_of_candidates {arg value : String} {candidate : Candidate}
    (mem : candidate ∈ candidates arg) (attached : candidate.attached = some value) :
    value.toList <:+ arg.toList := by
  rw [candidates] at mem
  split at mem
  · obtain ⟨spelling, _, rfl⟩ := List.mem_map.mp mem
    exact isSuffix_of_splitAtEquals attached
  · obtain ⟨spelling, _, rfl⟩ := List.mem_map.mp mem
    obtain rfl := Option.some.inj attached
    rw [String.toList_ofList]
    exact List.drop_suffix 2 arg.toList

/-- A value that is attached to an option is the end of its argument. -/
theorem isSuffix_of_classify {arg value : String} {flag : Flag} {short : Bool}
    (classified : classify arg = .ok (.option flag short (some value))) :
    value.toList <:+ arg.toList := by
  rw [classify] at classified
  split at classified
  · cases classified
  split at classified
  · cases classified
  split at classified
  · cases classified
  simp only at classified
  split at classified
  · simp only [Except.ok.injEq, Word.option.injEq] at classified
    exact isSuffix_of_splitAtEquals classified.2.2
  split at classified
  · rename_i candidate only
    simp only [Candidate.word, Except.ok.injEq, Word.option.injEq] at classified
    exact isSuffix_of_candidates (only ▸ List.mem_singleton_self candidate) classified.2.2
  · split at classified <;> cases classified
  · cases classified

/-- The word at a position is that of its argument; behind the separator there are operands only. -/
theorem word_of_words {args : List String} {marked : List (String × Word)} (wordsEq : words args = .ok marked)
    {k : Nat} {arg : String} {word : Word} (located : marked[k]? = some (arg, word)) :
    args[k]? = some arg ∧ (word = .separator ∨ word = .operand ∨ classify arg = .ok word) := by
  induction args generalizing marked k with
  | nil =>
      cases wordsEq
      cases located
  | cons first rest ih =>
      rw [words] at wordsEq
      split at wordsEq
      · cases wordsEq
        cases k with
        | zero =>
            cases located
            exact ⟨rfl, Or.inl rfl⟩
        | succ k =>
            rw [List.getElem?_cons_succ, List.getElem?_map, Option.map_eq_some_iff] at located
            obtain ⟨_, argEq, same⟩ := located
            cases same
            exact ⟨argEq, Or.inr (Or.inl rfl)⟩
      · obtain ⟨word, wordEq, wordsEq⟩ := Except.bind_eq_ok_iff.mp wordsEq
        obtain ⟨others, othersEq, wordsEq⟩ := Except.bind_eq_ok_iff.mp wordsEq
        cases wordsEq
        cases k with
        | zero =>
            cases located
            exact ⟨rfl, Or.inr (Or.inr wordEq)⟩
        | succ k => exact ih othersEq located

/-- An option stands in front of the separator. -/
theorem option_of_words {args : List String} {marked : List (String × Word)}
    (wordsEq : words args = .ok marked) {k : Nat} {arg : String} {flag : Flag} {short : Bool}
    {attached : Option String} (located : marked[k]? = some (arg, .option flag short attached)) :
    args[k]? = some arg ∧ classify arg = .ok (.option flag short attached) := by
  obtain ⟨argEq, other | other | classified⟩ := word_of_words wordsEq located
  · cases other
  · cases other
  · exact ⟨argEq, classified⟩

theorem isSuffix_of_words {args : List String} {marked : List (String × Word)}
    (wordsEq : words args = .ok marked) {arg value : String} {flag : Flag} {short : Bool}
    (mem : (arg, Word.option flag short (some value)) ∈ marked) :
    arg ∈ args ∧ value.toList <:+ arg.toList := by
  obtain ⟨k, located⟩ := List.mem_iff_getElem?.mp mem
  obtain ⟨argEq, classified⟩ := option_of_words wordsEq located
  exact ⟨List.mem_of_getElem? argEq, isSuffix_of_classify classified⟩

/-! ## Roles -/

theorem plainRole_eq_or (flag : Flag) (role : Role) (short : Bool) (attached : Option String) :
    plainRole flag role short attached = role ∨
      ∃ error, plainRole flag role short attached = .refused error := by
  rw [plainRole.eq_def]
  split
  · exact Or.inl rfl
  split
  · split
    · exact Or.inl rfl
    · exact Or.inr ⟨_, rfl⟩
  · exact Or.inr ⟨_, rfl⟩

/-- The words at the position of a role, if it is that of a value. -/
def Serves (marked : List (String × Word)) (k : Nat) : Role → Prop
  | .attached v value =>
      ∃ arg short, marked[k]? = some (arg, Word.option (.valued v) short (some value))
  | .value v =>
      ∃ i arg short value, k = i + 1 ∧ marked[i]? = some (arg, Word.option (.valued v) short none) ∧
        marked[k]? = some (value, Word.operand)
  | _ => True

theorem Serves.cons {marked : List (String × Word)} {k : Nat} {role : Role} (first : String × Word)
    (serves : Serves marked k role) : Serves (first :: marked) (k + 1) role := by
  cases role with
  | attached v value => exact serves
  | value v =>
      obtain ⟨i, arg, short, value, rfl, optionEq, valueEq⟩ := serves
      exact ⟨i + 1, arg, short, value, rfl, optionEq, valueEq⟩
  | _ => exact trivial

theorem serves_plainRole {marked : List (String × Word)} {k : Nat} {flag : Flag} {role : Role}
    {short : Bool} {attached : Option String} (serves : Serves marked k role) :
    Serves marked k (plainRole flag role short attached) := by
  rcases plainRole_eq_or flag role short attached with same | ⟨error, refused⟩
  · exact same.symm ▸ serves
  · exact refused.symm ▸ trivial

/-- A value that is attached stands in an option, and any other right behind one. -/
theorem serves_of_rolesFrom {run : RootRun} {marked : List (String × Word)} {k : Nat} {role : Role}
    (located : (rolesFrom run marked)[k]? = some role) : Serves marked k role := by
  have step : ∀ {head : Role} {tail : List Role} {first : String × Word} {rest : List (String × Word)}
      {k : Nat} {role : Role}, (head :: tail)[k]? = some role → Serves (first :: rest) 0 head →
      (∀ {i role}, tail[i]? = some role → Serves rest i role) → Serves (first :: rest) k role := by
    intro head tail first rest k role located atHead later
    cases k with
    | zero => exact Option.some.inj located ▸ atHead
    | succ k => exact (later located).cons first
  fun_induction rolesFrom run marked generalizing k role with
  | case1 => cases located
  | case2 arg rest ih | case4 arg rest ih | case6 run arg rest ih => exact step located trivial ih
  | case3 run arg rest going ih | case5 run arg rest going ih => exact step located trivial ih
  | case7 run arg short attached rest ih => exact step located (serves_plainRole trivial) ih
  | case8 run arg s short attached rest ih => exact step located (serves_plainRole trivial) ih
  | case9 run arg v short value rest ih => exact step located ⟨arg, short, rfl⟩ ih
  | case10 run arg v short value rest ih =>
      -- The value has no role of its own: its place is known by the option in front.
      match k, located with
      | 0, located => exact Option.some.inj located ▸ trivial
      | 1, located => exact Option.some.inj located ▸ ⟨0, arg, short, value, rfl, rfl, rfl⟩
      | k + 2, located => exact ((ih located).cons _).cons _
  | case11 run arg v short rest last ih => exact step located trivial ih

/-- A role with an attached value comes from a word with that value. -/
theorem mem_of_mem_rolesFrom {run : RootRun} {marked : List (String × Word)} {v : Valued} {value : String}
    (mem : Role.attached v value ∈ rolesFrom run marked) :
    ∃ arg short, (arg, Word.option (.valued v) short (some value)) ∈ marked := by
  obtain ⟨k, located⟩ := List.mem_iff_getElem?.mp mem
  obtain ⟨arg, short, found⟩ := serves_of_rolesFrom located
  exact ⟨arg, short, List.mem_of_getElem? found⟩

/-! ## Options -/

theorem Options.usable_unset : Options.Usable {} where
  roots := fun _ mem => absurd mem List.not_mem_nil
  config := by
    rintro _ ⟨⟩
  json := by
    rintro _ ⟨⟩

theorem Options.Usable.set {options after : Options} {v : Valued} {value : String}
    (usable : options.Usable) (valueUsable : Disk.isUsable value = true)
    (set : options.set v value = .ok after) : after.Usable := by
  have given : ∀ path, (if value = "--" then Setting.emptied else .given value) = .given path →
      Disk.isUsable path = true := by
    intro path same
    split at same
    · cases same
    · cases same
      exact valueUsable
  cases v with
  | workers =>
      rw [Options.set] at set
      split at set
      · cases set
        exact ⟨usable.roots, usable.config, usable.json⟩
      split at set
      · cases set
        exact ⟨usable.roots, usable.config, usable.json⟩
      · cases set
  | config =>
      cases set
      exact ⟨usable.roots, given, usable.json⟩
  | json =>
      cases set
      exact ⟨usable.roots, usable.config, given⟩

theorem Options.Usable.turnOn {options : Options} (usable : options.Usable) (s : Switch) :
    (options.turnOn s).Usable := by
  cases s <;> exact ⟨usable.roots, usable.config, usable.json⟩

/-- An argument with its role can be used as a path, and so can the value that is attached to it. -/
def UsableItem (item : String × Role) : Prop :=
  Disk.isUsable item.1 = true ∧ ∀ v value, item.2 = .attached v value → Disk.isUsable value = true

theorem usable_of_interpret {options result : Options} {strays : List String}
    {items : List (String × Role)} (usable : options.Usable) (all : ∀ item ∈ items, UsableItem item)
    (interpreted : interpret options strays items = .accepted result) : result.Usable := by
  fun_induction interpret options strays items with
  | case1 => exact Request.accepted.inj interpreted ▸ usable
  | case2 | case3 | case4 | case7 | case9 => cases interpreted
  | case5 options strays arg s rest ih =>
      exact ih (usable.turnOn s) (List.forall_mem_cons.mp all).2 interpreted
  | case6 options strays arg v value rest after setEq ih =>
      obtain ⟨item, others⟩ := List.forall_mem_cons.mp all
      exact ih (usable.set (item.2 v value rfl) setEq) others interpreted
  | case8 options strays value v rest after setEq ih =>
      obtain ⟨item, others⟩ := List.forall_mem_cons.mp all
      exact ih (usable.set item.1 setEq) others interpreted
  | case10 options strays arg v rest ih | case11 options strays arg rest ih
  | case13 options strays arg rest ih =>
      exact ih usable (List.forall_mem_cons.mp all).2 interpreted
  | case12 options strays arg rest ih =>
      obtain ⟨item, others⟩ := List.forall_mem_cons.mp all
      refine ih ⟨?_, usable.config, usable.json⟩ others interpreted
      exact List.forall_mem_append.mpr ⟨usable.roots, List.forall_mem_singleton.mpr item.1⟩

theorem usable_of_parse {args : List String} {options : Options}
    (usable : ∀ arg ∈ args, Disk.isUsable arg = true) (parsed : parse args = .accepted options) :
    options.Usable := by
  rw [parse] at parsed
  split at parsed
  · cases parsed
  rename_i marked wordsEq
  refine usable_of_interpret Options.usable_unset ?_ parsed
  rintro ⟨arg, role⟩ mem
  obtain ⟨argMem, roleMem⟩ := List.of_mem_zip mem
  refine ⟨usable arg argMem, ?_⟩
  rintro v value rfl
  obtain ⟨other, short, found⟩ := mem_of_mem_rolesFrom roleMem
  obtain ⟨otherMem, suffix⟩ := isSuffix_of_words wordsEq found
  exact isUsable_of_isSuffix suffix (usable other otherMem)

/-! ## The whole command line -/

/-- Options from arguments that can be used as paths hold such texts only. -/
theorem usable_of_request {args : List String} {options : Options}
    (usable : ∀ arg ∈ args, Disk.isUsable arg = true) (requested : request args = .accepted options) :
    options.Usable := by
  simp only [request] at requested
  split at requested
  · rename_i parsed parsedEq
    cases requested
    have kept := usable_of_parse (fun arg mem => usable arg ((remaining_sublist args).subset mem)) parsedEq
    exact ⟨kept.roots, kept.config, kept.json⟩
  · rename_i other
    exact absurd requested (other options)

end StringAudit.CommandLine
