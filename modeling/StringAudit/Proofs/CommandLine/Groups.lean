import Mathlib.Data.List.Induction
import StringAudit.CommandLine.Parse

/-!
# Roots and whole options

Arguments are in order if all roots come first and are followed by whole options: every option is spelled in
full, and its value, if it takes one, is the next argument.  No root and no value starts with a dash.  Such
arguments are read group by group, and only a number of workers can be wrong with them.
-/

namespace StringAudit.CommandLine

/-- The spelling of a switch in full. -/
def Switch.spelling : Switch → String
  | .storyboards => "--storyboard"
  | .write => "--write"
  | .quiet => "--quiet"

/-- The spelling of an option with a value in full. -/
def Valued.spelling : Valued → String
  | .workers => "--workers"
  | .config => "--config"
  | .json => "--json"

/-- A whole option: a switch, or an option and its value. -/
inductive Group
  | switch (s : Switch)
  | valued (v : Valued) (value : String)
  deriving DecidableEq, Repr

/-- The arguments of a whole option. -/
def Group.args : Group → List String
  | switch s => [s.spelling]
  | valued v value => [v.spelling, value]

/-- The arguments of a whole option with what each of them is. -/
def Group.marked : Group → List (String × Word)
  | switch s => [(s.spelling, .option (.switch s) false none)]
  | valued v value => [(v.spelling, .option (.valued v) false none), (value, .operand)]

/-- The arguments of a whole option with their roles. -/
def Group.items : Group → List (String × Role)
  | switch s => [(s.spelling, .switch s)]
  | valued v value => [(v.spelling, .announced v), (value, .value v)]

/-- Turn a switch on, or set an option to its value. -/
def Group.apply (options : Options) : Group → Except UsageError Options
  | switch s => .ok (options.turnOn s)
  | valued v value => options.set v value

/-- The roots, and behind them whole options. -/
def arguments (roots : List String) (groups : List Group) : List String :=
  roots ++ groups.flatMap Group.args

/-- An argument without a dash in front. -/
def Plain (arg : String) : Prop :=
  arg.startsWith "-" = false

instance (arg : String) : Decidable (Plain arg) :=
  inferInstanceAs (Decidable (_ = _))

/-- No value of an option starts with a dash. -/
def Group.Sound : Group → Prop
  | switch _ => True
  | valued _ value => Plain value

instance : (g : Group) → Decidable g.Sound
  | .switch _ => inferInstanceAs (Decidable True)
  | .valued _ value => inferInstanceAs (Decidable (Plain value))

/-- What is asked for, if nothing is wrong. -/
def outcome : Except UsageError Options → Request
  | .ok options => .accepted options
  | .error error => .refused error

theorem arguments_append (roots : List String) (front back : List Group) :
    arguments roots (front ++ back) = arguments roots front ++ back.flatMap Group.args := by
  rw [arguments, arguments, List.flatMap_append, List.append_assoc]

/-! ## Words -/

theorem Plain.ne {arg : String} (plain : Plain arg) {dashed : String} (dash : ¬ Plain dashed) :
    arg ≠ dashed := by
  rintro rfl
  exact dash plain

theorem classify_spelling_switch (s : Switch) :
    classify s.spelling = .ok (.option (.switch s) false none) := by
  cases s <;> decide +kernel

theorem classify_spelling_valued (v : Valued) :
    classify v.spelling = .ok (.option (.valued v) false none) := by
  cases v <;> decide +kernel

theorem words_cons {arg : String} {word : Word} {rest : List String} {others : List (String × Word)}
    (inside : arg ≠ "--") (classified : classify arg = .ok word) (restEq : words rest = .ok others) :
    words (arg :: rest) = .ok ((arg, word) :: others) := by
  rw [words, if_neg inside, classified, restEq]
  rfl

theorem Plain.words_cons {arg : String} {rest : List String} {others : List (String × Word)}
    (plain : Plain arg) (restEq : words rest = .ok others) :
    words (arg :: rest) = .ok ((arg, .operand) :: others) := by
  apply CommandLine.words_cons (plain.ne (by decide +kernel)) _ restEq
  rw [classify, plain]
  rfl

theorem Group.words_append {g : Group} (sound : g.Sound) {rest : List String}
    {others : List (String × Word)} (restEq : words rest = .ok others) :
    words (g.args ++ rest) = .ok (g.marked ++ others) := by
  cases g with
  | switch s =>
      have inside : s.spelling ≠ "--" := by cases s <;> decide
      exact words_cons inside (classify_spelling_switch s) restEq
  | valued v value =>
      have inside : v.spelling ≠ "--" := by cases v <;> decide
      exact words_cons inside (classify_spelling_valued v) (Plain.words_cons sound restEq)

theorem words_groups {groups : List Group} (sound : ∀ g ∈ groups, g.Sound) :
    words (groups.flatMap Group.args) = .ok (groups.flatMap Group.marked) := by
  induction groups with
  | nil => rfl
  | cons g rest ih =>
      obtain ⟨first, others⟩ := List.forall_mem_cons.mp sound
      exact g.words_append first (ih others)

theorem words_arguments {roots : List String} {groups : List Group} (plain : ∀ root ∈ roots, Plain root)
    (sound : ∀ g ∈ groups, g.Sound) :
    words (arguments roots groups) =
      .ok (roots.map (·, Word.operand) ++ groups.flatMap Group.marked) := by
  induction roots with
  | nil => exact words_groups sound
  | cons root rest ih =>
      obtain ⟨first, others⟩ := List.forall_mem_cons.mp plain
      exact first.words_cons (ih others)

/-! ## Roles -/

theorem Group.rolesFrom_append (run : RootRun) (g : Group) (rest : List (String × Word)) :
    rolesFrom run (g.marked ++ rest) = g.items.map Prod.snd ++ rolesFrom run.interrupted rest := by
  cases g with
  | switch s => simp [Group.marked, Group.items, rolesFrom, plainRole]
  | valued v value => simp [Group.marked, Group.items, rolesFrom]

theorem rolesFrom_groups (run : RootRun) (groups : List Group) :
    rolesFrom run (groups.flatMap Group.marked) = (groups.flatMap Group.items).map Prod.snd := by
  induction groups generalizing run with
  | nil => cases run <;> rfl
  | cons g rest ih =>
      rw [List.flatMap_cons, List.flatMap_cons, List.map_append, Group.rolesFrom_append, ih]

/-- The roles of arguments in order: the run of roots is not interrupted. -/
theorem rolesFrom_arguments {run : RootRun} (going : run ≠ .ended) (roots : List String)
    (groups : List Group) :
    rolesFrom run (roots.map (·, Word.operand) ++ groups.flatMap Group.marked) =
      (roots.map (·, Role.root) ++ groups.flatMap Group.items).map Prod.snd := by
  induction roots generalizing run with
  | nil => exact rolesFrom_groups run groups
  | cons root rest ih =>
      have later := @ih .going (by decide)
      rw [List.map_cons, List.map_cons, List.cons_append, List.cons_append, List.map_cons, ← later]
      cases run with
      | ended => exact absurd rfl going
      | _ => rfl

/-! ## Reading -/

theorem Group.interpret_append (options : Options) (strays : List String) (g : Group)
    (rest : List (String × Role)) :
    interpret options strays (g.items ++ rest) =
      match g.apply options with
      | .ok options => interpret options strays rest
      | .error error => .refused error := by
  cases g <;> rfl

theorem interpret_groups (options : Options) (groups : List Group) :
    interpret options [] (groups.flatMap Group.items) = outcome (groups.foldlM Group.apply options) := by
  induction groups generalizing options with
  | nil => rfl
  | cons g rest ih =>
      rw [List.flatMap_cons, Group.interpret_append, List.foldlM_cons]
      cases g.apply options with
      | error error => rfl
      | ok options => exact ih options

theorem interpret_roots (options : Options) (strays roots : List String) (rest : List (String × Role)) :
    interpret options strays (roots.map (·, Role.root) ++ rest) =
      interpret { options with roots := options.roots ++ roots } strays rest := by
  induction roots generalizing options with
  | nil => rw [List.append_nil, List.map_nil, List.nil_append]
  | cons root others ih =>
      rw [List.map_cons, List.cons_append, interpret, ih, List.append_assoc, List.singleton_append]

theorem fst_items (roots : List String) (groups : List Group) :
    (roots.map (·, Role.root) ++ groups.flatMap Group.items).map Prod.fst = arguments roots groups := by
  have fst : ∀ g : Group, g.items.map Prod.fst = g.args := by
    intro g
    cases g <;> rfl
  have kept : roots.map (Prod.fst ∘ (·, Role.root)) = roots := List.map_id roots
  simp only [arguments, List.map_append, List.map_map, kept, List.map_flatMap, fst]

/-- Arguments in order are read group by group. -/
theorem parse_arguments {roots : List String} {groups : List Group} (plain : ∀ root ∈ roots, Plain root)
    (sound : ∀ g ∈ groups, g.Sound) :
    parse (arguments roots groups) = outcome (groups.foldlM Group.apply { roots }) := by
  rw [parse, words_arguments plain sound]
  simp only [roles]
  rw [rolesFrom_arguments (by decide), ← fst_items, ← List.zip_of_prod rfl rfl]
  exact (interpret_roots {} [] roots _).trans (interpret_groups _ groups)

end StringAudit.CommandLine
