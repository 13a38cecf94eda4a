import StringAudit.Proofs.CommandLine.BareWords
import StringAudit.Proofs.CommandLine.Groups

/-!
# Bare words mean switches

In arguments that are in order, a bare `write` means the switch for writing wherever it stands, except
between an option and its value; so does a bare `storyboard` at the end.  The search for bare words finds
these words and no others: it passes over every root, and over every option together with its value, which
may itself be spelled like one of the words.
-/

namespace StringAudit.CommandLine

/-! ## The search for bare words -/

/-- The last argument, if there is one, takes the next argument for its value. -/
def AwaitsMore (args : List String) : Prop :=
  args.getLast?.any awaitsValue = true

section Search

variable {front back : List String}

theorem awaitsMore_append : AwaitsMore (front ++ back) ↔ AwaitsMore back ∨ back = [] ∧ AwaitsMore front := by
  rw [AwaitsMore, AwaitsMore, AwaitsMore, List.getLast?_append]
  cases lastEq : back.getLast? with
  | none => simp [List.getLast?_eq_none_iff.mp lastEq]
  | some last =>
      have nonempty : back ≠ [] := by
        rintro rfl
        cases lastEq
      simp [nonempty]

theorem getD_awaitsValue_eq (free : ¬ AwaitsMore front) :
    (front.getLast?.map awaitsValue).getD false = false := by
  rw [AwaitsMore] at free
  cases lastEq : front.getLast? with
  | none => rfl
  | some last => simpa [lastEq] using free

theorem not_awaitsMore_write : ¬ AwaitsMore [writeWord] := by
  change ¬ awaitsValue writeWord = true
  decide

/-- Where nothing is awaited, a further `write` does not change what is awaited at the end. -/
theorem awaitsMore_insert (free : ¬ AwaitsMore front) :
    AwaitsMore (front ++ writeWord :: back) ↔ AwaitsMore (front ++ back) := by
  rw [awaitsMore_append, awaitsMore_append, ← List.singleton_append, awaitsMore_append]
  simp [free, not_awaitsMore_write]

theorem withoutWrite?_cons {awaited : Bool} {arg : String} {rest : List String} (other : arg ≠ writeWord) :
    withoutWrite? awaited (arg :: rest) = (withoutWrite? (awaitsValue arg) rest).map (arg :: ·) := by
  rw [withoutWrite?, if_neg fun isWrite => other isWrite.1]

/-- If no `write` is bare, a further one is found where nothing is awaited. -/
theorem withoutWrite?_insert {awaited : Bool} (spared : withoutWrite? awaited (front ++ back) = none)
    (free : (front.getLast?.map awaitsValue).getD awaited = false) :
    withoutWrite? awaited (front ++ writeWord :: back) = some (front ++ back) := by
  induction front generalizing awaited with
  | nil =>
      have isFree : awaited = false := free
      rw [List.nil_append, List.nil_append, withoutWrite?, if_pos ⟨rfl, isFree⟩]
  | cons arg rest ih =>
      rw [List.cons_append, withoutWrite?] at spared
      split at spared
      · cases spared
      · rename_i other
        have restFree : (rest.getLast?.map awaitsValue).getD (awaitsValue arg) = false := by
          rw [List.getLast?_cons] at free
          cases lastEq : rest.getLast? <;> simpa [lastEq] using free
        rw [List.cons_append, withoutWrite?, if_neg other, ih (Option.map_eq_none_iff.mp spared) restFree]
        rfl

theorem endsWithStoryboard_concat {init : List String} {last : String} :
    endsWithStoryboard (init ++ [last]) = true ↔ last = storyboardWord ∧ ¬ AwaitsMore init := by
  rw [endsWithStoryboard, AwaitsMore, List.getLast?_concat, List.dropLast_concat]
  simp

theorem not_endsWithStoryboard {args : List String} (other : args.getLast? ≠ some storyboardWord) :
    endsWithStoryboard args = false := by
  rw [endsWithStoryboard, decide_eq_false other, Bool.false_and]

/-- Where nothing is awaited, a further `write` does not make another argument a bare `storyboard`. -/
theorem endsWithStoryboard_insert (ends : endsWithStoryboard (front ++ back) = false)
    (free : ¬ AwaitsMore front) : endsWithStoryboard (front ++ writeWord :: back) = false := by
  cases back using List.reverseRecOn with
  | nil =>
      apply not_endsWithStoryboard
      rw [List.getLast?_concat]
      decide
  | append_singleton init last =>
      rw [← Bool.not_eq_true, ← List.append_assoc, endsWithStoryboard_concat] at ends
      rw [← Bool.not_eq_true, ← List.cons_append, ← List.append_assoc, endsWithStoryboard_concat,
        awaitsMore_insert free]
      exact ends

end Search

/-! ## Arguments in order -/

/-- Arguments in order, with roots that are no bare words. -/
structure Orderly (roots : List String) (groups : List Group) : Prop where
  plain : ∀ root ∈ roots, Plain root
  notWrite : writeWord ∉ roots
  notStoryboard : roots.getLast? ≠ some storyboardWord
  sound : ∀ g ∈ groups, g.Sound

/-- A position is between an option and its value. -/
def Separates (roots : List String) (groups : List Group) (k : Nat) : Prop :=
  ∃ front v value back, groups = front ++ .valued v value :: back ∧ k = (arguments roots front).length + 1

theorem Plain.awaitsValue_eq {arg : String} (plain : Plain arg) : awaitsValue arg = false := by
  have dashed : ∀ option ∈ awaitingOptions, ¬ Plain option := by decide +kernel
  rw [awaitsValue, List.contains_eq_mem, decide_eq_false_iff_not]
  exact fun mem => dashed arg mem plain

theorem awaitsValue_switch (s : Switch) : awaitsValue s.spelling = false := by
  cases s <;> decide

theorem awaitsValue_valued (v : Valued) : awaitsValue v.spelling = true := by
  cases v <;> decide

section InOrder

variable {roots : List String} {groups : List Group}

theorem separates_cons_root {root : String} {k : Nat} (separates : Separates roots groups k) :
    Separates (root :: roots) groups (k + 1) := by
  obtain ⟨front, v, value, back, rfl, rfl⟩ := separates
  exact ⟨front, v, value, back, rfl, rfl⟩

theorem separates_cons_group {g : Group} {k : Nat} (separates : Separates [] groups k) :
    Separates [] (g :: groups) (g.args.length + k) := by
  obtain ⟨front, v, value, back, rfl, rfl⟩ := separates
  refine ⟨g :: front, v, value, back, rfl, ?_⟩
  simp only [arguments, List.nil_append, List.flatMap_cons, List.length_append]
  omega

/-- Among whole options, only the options themselves await a value. -/
theorem separates_of_awaits_group (sound : ∀ g ∈ groups, g.Sound) {i : Nat} {arg : String}
    (located : (groups.flatMap Group.args)[i]? = some arg) (awaits : awaitsValue arg = true) :
    Separates [] groups (i + 1) := by
  induction groups generalizing i with
  | nil => cases located
  | cons g rest ih =>
      obtain ⟨first, others⟩ := List.forall_mem_cons.mp sound
      cases g with
      | switch s =>
          cases i with
          | zero =>
              obtain rfl : s.spelling = arg := Option.some.inj located
              cases (awaitsValue_switch s).symm.trans awaits
          | succ i =>
              rw [Nat.add_comm]
              exact separates_cons_group (ih others located)
      | valued v value =>
          match i, located with
          | 0, _ => exact ⟨[], v, value, rest, rfl, rfl⟩
          | 1, located =>
              -- A value awaits nothing: it has no dash in front, whatever it is.
              obtain rfl : value = arg := Option.some.inj located
              have plain : Plain value := first
              cases plain.awaitsValue_eq.symm.trans awaits
          | i + 2, located =>
              rw [Nat.add_right_comm, Nat.add_comm]
              exact separates_cons_group (ih others located)

/-- In arguments in order, only options await a value. -/
theorem separates_of_awaits (plain : ∀ root ∈ roots, Plain root) (sound : ∀ g ∈ groups, g.Sound) {i : Nat}
    {arg : String} (located : (arguments roots groups)[i]? = some arg) (awaits : awaitsValue arg = true) :
    Separates roots groups (i + 1) := by
  induction roots generalizing i with
  | nil => exact separates_of_awaits_group sound located awaits
  | cons root rest ih =>
      obtain ⟨first, others⟩ := List.forall_mem_cons.mp plain
      cases i with
      | zero =>
          obtain rfl : root = arg := Option.some.inj located
          cases first.awaitsValue_eq.symm.trans awaits
      | succ i => exact separates_cons_root (ih others located)

namespace Orderly

variable (orderly : Orderly roots groups)

include orderly

/-- What is in front of a position awaits a value only if the position is between an option and its
value. -/
theorem separates_of_awaitsMore {front back : List String} (split : arguments roots groups = front ++ back)
    (awaits : AwaitsMore front) : Separates roots groups front.length := by
  cases front using List.reverseRecOn with
  | nil => cases awaits
  | append_singleton init last =>
      rw [AwaitsMore, List.getLast?_concat, Option.any_some] at awaits
      rw [List.length_append, List.length_singleton]
      apply separates_of_awaits orderly.plain orderly.sound _ awaits
      simp [split]

/-- Every option has its value. -/
theorem not_awaitsMore : ¬ AwaitsMore (arguments roots groups) := by
  intro awaits
  obtain ⟨front, v, value, back, rfl, place⟩ :=
    orderly.separates_of_awaitsMore (List.append_nil _).symm awaits
  rw [arguments_append, List.length_append, List.flatMap_cons] at place
  simp [Group.args] at place

end Orderly

theorem withoutWrite?_groups (sound : ∀ g ∈ groups, g.Sound) :
    withoutWrite? false (groups.flatMap Group.args) = none := by
  induction groups with
  | nil => rfl
  | cons g rest ih =>
      obtain ⟨first, others⟩ := List.forall_mem_cons.mp sound
      rw [List.flatMap_cons]
      cases g with
      | switch s =>
          have other : s.spelling ≠ writeWord := by cases s <;> decide
          rw [Group.args, List.singleton_append, withoutWrite?_cons other, awaitsValue_switch, ih others]
          rfl
      | valued v value =>
          have other : v.spelling ≠ writeWord := by cases v <;> decide
          have plain : Plain value := first
          -- The value is passed over whatever it is, since it is awaited.
          rw [Group.args, List.cons_append, withoutWrite?_cons other, awaitsValue_valued,
            List.singleton_append, withoutWrite?, if_neg fun isWrite => Bool.noConfusion isWrite.2,
            plain.awaitsValue_eq, ih others]
          rfl

theorem withoutWrite?_arguments (plain : ∀ root ∈ roots, Plain root) (notWrite : writeWord ∉ roots)
    (sound : ∀ g ∈ groups, g.Sound) : withoutWrite? false (arguments roots groups) = none := by
  induction roots with
  | nil => exact withoutWrite?_groups sound
  | cons root rest ih =>
      obtain ⟨first, others⟩ := List.forall_mem_cons.mp plain
      rw [List.mem_cons, not_or] at notWrite
      rw [arguments, List.cons_append, withoutWrite?_cons (Ne.symm notWrite.1), first.awaitsValue_eq]
      change (withoutWrite? false (arguments rest groups)).map (root :: ·) = none
      rw [ih others notWrite.2]
      rfl

theorem Orderly.endsWithStoryboard_eq (orderly : Orderly roots groups) :
    endsWithStoryboard (arguments roots groups) = false := by
  cases groups using List.reverseRecOn with
  | nil =>
      apply not_endsWithStoryboard
      rw [arguments, List.flatMap_nil, List.append_nil]
      exact orderly.notStoryboard
  | append_singleton init g =>
      rw [arguments_append, List.flatMap_singleton]
      cases g with
      | switch s =>
          apply not_endsWithStoryboard
          rw [Group.args, List.getLast?_concat]
          cases s <;> decide
      | valued v value =>
          rw [Group.args, ← Bool.not_eq_true, ← List.singleton_append, ← List.append_assoc,
            endsWithStoryboard_concat]
          rintro ⟨-, free⟩
          apply free
          rw [AwaitsMore, List.getLast?_concat, Option.any_some]
          exact awaitsValue_valued v

end InOrder

/-! ## Words and switches -/

/-- The arguments with a bare `write` at a position, if there is one, and a bare `storyboard` at the end, if
there is one. -/
def withWords (position : Option Nat) (storyboards : Bool) (args : List String) : List String :=
  (match position with
    | none => args
    | some k => args.take k ++ writeWord :: args.drop k) ++
  if storyboards then [storyboardWord] else []

/-- The arguments with the switches for writing and for storyboards at the end. -/
def withSwitches (write storyboards : Bool) (args : List String) : List String :=
  args ++ (if write then [Switch.write.spelling] else []) ++
    if storyboards then [Switch.storyboards.spelling] else []

/-- The options with switches turned on. -/
def Options.switched (write storyboards : Bool) (options : Options) : Options :=
  { options with storyboards := options.storyboards || storyboards, write := options.write || write }

theorem splitBareWords_append {args : List String} (ends : endsWithStoryboard args = false)
    (free : ¬ AwaitsMore args) (storyboards : Bool) :
    splitBareWords (args ++ if storyboards then [storyboardWord] else []) =
      ⟨(withoutWrite? false args).getD args, storyboards, (withoutWrite? false args).isSome⟩ := by
  rw [splitBareWords_eq]
  cases storyboards with
  | false =>
      rw [if_neg Bool.false_ne_true, List.append_nil, ends]
      rfl
  | true =>
      rw [if_pos rfl, endsWithStoryboard_concat.mpr ⟨rfl, free⟩, if_pos rfl, List.dropLast_concat]

/-- The options are those of the arguments that remain, with the switches that bare words mean. -/
theorem request_eq_of_split {args remaining : List String} {storyboards write : Bool}
    {result : Except UsageError Options} (split : splitBareWords args = ⟨remaining, storyboards, write⟩)
    (parsed : parse remaining = outcome result) :
    request args = outcome (result.map (Options.switched write storyboards)) := by
  simp only [request, split, parsed]
  cases result <;> rfl

section Main

variable {roots : List String} {groups : List Group}

/-- The bare words are taken out of arguments in order, and nothing else is. -/
theorem Orderly.splitBareWords_withWords (orderly : Orderly roots groups) {position : Option Nat}
    (whole : ∀ k, position = some k → ¬ Separates roots groups k) (storyboards : Bool) :
    splitBareWords (withWords position storyboards (arguments roots groups)) =
      ⟨arguments roots groups, storyboards, position.isSome⟩ := by
  have spared := withoutWrite?_arguments orderly.plain orderly.notWrite orderly.sound
  cases position with
  | none =>
      rw [withWords, splitBareWords_append orderly.endsWithStoryboard_eq orderly.not_awaitsMore, spared]
      rfl
  | some k =>
      have split := List.take_append_drop k (arguments roots groups)
      have free : ¬ AwaitsMore ((arguments roots groups).take k) := by
        intro awaits
        by_cases within : k ≤ (arguments roots groups).length
        · have separates := orderly.separates_of_awaitsMore split.symm awaits
          rw [List.length_take_of_le within] at separates
          exact whole k rfl separates
        · -- A position behind the last argument counts as the end.
          rw [List.take_of_length_le (Nat.le_of_not_le within)] at awaits
          exact orderly.not_awaitsMore awaits
      have ends := endsWithStoryboard_insert (split.symm ▸ orderly.endsWithStoryboard_eq) free
      have complete := (awaitsMore_insert free).not.mpr (split.symm ▸ orderly.not_awaitsMore)
      have found := withoutWrite?_insert (split.symm ▸ spared) (getD_awaitsValue_eq free)
      rw [withWords, splitBareWords_append ends complete, found, split]
      rfl

/-- Arguments in order stay so with switches behind them. -/
theorem Orderly.append_switches (orderly : Orderly roots groups) (switches : List Switch) :
    Orderly roots (groups ++ switches.map .switch) where
  plain := orderly.plain
  notWrite := orderly.notWrite
  notStoryboard := orderly.notStoryboard
  sound := by
    rw [List.forall_mem_append]
    refine ⟨orderly.sound, ?_⟩
    simp [Group.Sound]

/-- The switches that are asked for. -/
def asked (write storyboards : Bool) : List Switch :=
  (if write then [.write] else []) ++ if storyboards then [.storyboards] else []

theorem withSwitches_arguments (write storyboards : Bool) :
    withSwitches write storyboards (arguments roots groups) =
      arguments roots (groups ++ (asked write storyboards).map .switch) := by
  rw [arguments_append, withSwitches, List.append_assoc]
  cases write <;> cases storyboards <;> rfl

theorem foldlM_asked (options : Options) (write storyboards : Bool) :
    ((asked write storyboards).map Group.switch).foldlM Group.apply options =
      .ok (options.switched write storyboards) := by
  cases write <;> cases storyboards <;> simp [asked, Group.apply, Options.turnOn, Options.switched] <;> rfl

theorem Orderly.request_withWords (orderly : Orderly roots groups) {position : Option Nat}
    (whole : ∀ k, position = some k → ¬ Separates roots groups k) (storyboards : Bool) :
    request (withWords position storyboards (arguments roots groups)) =
      outcome ((groups.foldlM Group.apply { roots }).map
        (Options.switched position.isSome storyboards)) :=
  request_eq_of_split (orderly.splitBareWords_withWords whole storyboards)
    (parse_arguments orderly.plain orderly.sound)

/-- Without bare words, the options are those of the arguments. -/
theorem Orderly.request_arguments (orderly : Orderly roots groups) :
    request (arguments roots groups) = outcome (groups.foldlM Group.apply { roots }) := by
  have wordless := orderly.request_withWords (fun k (isSome : none = some k) => by cases isSome) false
  have unchanged : ∀ options : Options, options.switched false false = options := by
    intro options
    simp [Options.switched]
  rw [withWords, if_neg Bool.false_ne_true, List.append_nil] at wordless
  rw [wordless]
  cases groups.foldlM Group.apply { roots } with
  | error error => rfl
  | ok options => exact congrArg Request.accepted (unchanged options)

theorem Orderly.request_withSwitches (orderly : Orderly roots groups) (write storyboards : Bool) :
    request (withSwitches write storyboards (arguments roots groups)) =
      outcome ((groups.foldlM Group.apply { roots }).map (Options.switched write storyboards)) := by
  rw [withSwitches_arguments, (orderly.append_switches _).request_arguments, List.foldlM_append]
  simp only [foldlM_asked]
  rfl

/-- Bare words in arguments in order mean the switches: both ask for what the roots and the options say,
with the switches turned on. -/
theorem words_mean_switches (orderly : Orderly roots groups) {position : Option Nat}
    (whole : ∀ k, position = some k → ¬ Separates roots groups k) (storyboards : Bool) :
    request (withWords position storyboards (arguments roots groups)) =
        request (withSwitches position.isSome storyboards (arguments roots groups)) ∧
      request (withWords position storyboards (arguments roots groups)) =
        outcome ((groups.foldlM Group.apply { roots }).map
          (Options.switched position.isSome storyboards)) := by
  have byWords := orderly.request_withWords whole storyboards
  have bySwitches := orderly.request_withSwitches position.isSome storyboards
  exact ⟨byWords.trans bySwitches.symm, byWords⟩

/-- The values are spelled like bare words, and a bare `write` stands between two options. -/
theorem words_mean_switches_spelled_alike :
    request ["app", "lib", "--json", "write", "write", "--quiet", "--config", "storyboard", "storyboard"] =
        request ["app", "lib", "--json", "write", "--quiet", "--config", "storyboard", "--write",
          "--storyboard"] ∧
      request ["app", "lib", "--json", "write", "write", "--quiet", "--config", "storyboard", "storyboard"] =
        .accepted {
          roots := ["app", "lib"], storyboards := true, write := true, quiet := true
          config := .given "storyboard", json := .given "write" } := by
  have orderly : Orderly ["app", "lib"]
      [.valued .json "write", .switch .quiet, .valued .config "storyboard"] := {
    plain := by decide +kernel
    notWrite := by decide
    notStoryboard := by decide
    sound := by decide +kernel }
  have whole : ∀ k, some 4 = some k → ¬ Separates ["app", "lib"]
      [.valued .json "write", .switch .quiet, .valued .config "storyboard"] k := by
    rintro _ ⟨⟩ ⟨front, v, value, back, split, place⟩
    match front, split, place with
    | [], _, place => cases place
    | [_], split, _ => cases split
    | [_, _], split, place =>
        cases split
        cases place
    | _ :: _ :: _ :: _, split, _ => simp at split
  have meaning := words_mean_switches orderly whole true
  exact ⟨meaning.1, meaning.2.trans (by decide +kernel)⟩

end Main

end StringAudit.CommandLine
