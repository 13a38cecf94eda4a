import StringAudit.Proofs.Disk.Look

/-!
# Routes

`Route` is the relation behind following a path: from a place, along pieces, through a number of
links, to a goal.  It sees the disk through `look` alone, so that what a change at one place does to
a path is read off from the places that its route passes.

Following pieces reaches a goal exactly when there is a route through few enough links.  Routes
compose and are deterministic.
-/

namespace StringAudit.Disk

/-- A piece of a path that stands for an entry. -/
def IsStep (piece : String) : Prop :=
  piece ≠ "." ∧ piece ≠ ".." ∧ piece.utf8ByteSize ≤ maxNameBytes

/-- A way along pieces from a place to a goal through a number of links. -/
inductive Route (look : Place → Option Leaf) : Place → List String → Nat → Place → Prop
  | done (place : Place) : Route look place [] 0 place
  | stay {place goal : Place} {piece : String} {rest : List String} {links : Nat}
      (there : look place = some .folder) (dot : piece = ".")
      (onward : Route look place rest links goal) :
      Route look place (piece :: rest) links goal
  | up {place goal : Place} {piece : String} {rest : List String} {links : Nat}
      (there : look place = some .folder) (dots : piece = "..")
      (onward : Route look place.dropLast rest links goal) :
      Route look place (piece :: rest) links goal
  | enter {place goal : Place} {piece : String} {rest : List String} {links : Nat} {leaf : Leaf}
      (there : look place = some .folder) (step : IsStep piece)
      (found : look (place ++ [piece]) = some leaf) (notLink : ∀ target, leaf ≠ .link target)
      (onward : Route look (place ++ [piece]) rest links goal) :
      Route look place (piece :: rest) links goal
  | link {place goal : Place} {piece target : String} {rest : List String} {links : Nat}
      (there : look place = some .folder) (step : IsStep piece)
      (found : look (place ++ [piece]) = some (.link target))
      (onward : Route look (start place target) (steps target ++ rest) links goal) :
      Route look place (piece :: rest) (links + 1) goal

namespace Route

variable {look : Place → Option Leaf}

/-- Only a directory can be followed any further. -/
theorem folder_of_cons {place goal : Place} {piece : String} {rest : List String} {links : Nat}
    (route : Route look place (piece :: rest) links goal) : look place = some .folder := by
  cases route <;> assumption

/-- No route goes on from anything else. -/
theorem eq_nil_of_leaf {place goal : Place} {pieces : List String} {links : Nat}
    (route : Route look place pieces links goal) (leaf : look place ≠ some .folder) :
    pieces = [] ∧ links = 0 ∧ goal = place := by
  cases pieces with
  | nil =>
      cases route
      exact ⟨rfl, rfl, rfl⟩
  | cons piece rest => exact absurd route.folder_of_cons leaf

/-! ### What a route does at its first piece -/

theorem stay_iff {place goal : Place} {rest : List String} {links : Nat}
    (there : look place = some .folder) :
    Route look place ("." :: rest) links goal ↔ Route look place rest links goal := by
  constructor
  · intro route
    cases route with
    | stay _ _ onward => exact onward
    | up _ dots => exact absurd dots (by decide)
    | enter _ step => exact absurd rfl step.1
    | link _ step => exact absurd rfl step.1
  · exact .stay there rfl

theorem up_iff {place goal : Place} {rest : List String} {links : Nat}
    (there : look place = some .folder) :
    Route look place (".." :: rest) links goal ↔ Route look place.dropLast rest links goal := by
  constructor
  · intro route
    cases route with
    | stay _ dot => exact absurd dot (by decide)
    | up _ _ onward => exact onward
    | enter _ step => exact absurd rfl step.2.1
    | link _ step => exact absurd rfl step.2.1
  · exact .up there rfl

theorem enter_iff {place goal : Place} {piece : String} {rest : List String} {links : Nat}
    {leaf : Leaf} (there : look place = some .folder) (step : IsStep piece)
    (found : look (place ++ [piece]) = some leaf) (notLink : ∀ target, leaf ≠ .link target) :
    Route look place (piece :: rest) links goal ↔
      Route look (place ++ [piece]) rest links goal := by
  constructor
  · intro route
    cases route with
    | stay _ dot => exact absurd dot step.1
    | up _ dots => exact absurd dots step.2.1
    | enter _ _ _ _ onward => exact onward
    | link _ _ found' =>
        rw [found] at found'
        exact absurd (Option.some.inj found') (notLink _)
  · exact .enter there step found notLink

theorem link_iff {place goal : Place} {piece target : String} {rest : List String} {links : Nat}
    (there : look place = some .folder) (step : IsStep piece)
    (found : look (place ++ [piece]) = some (.link target)) :
    Route look place (piece :: rest) links goal ↔
      ∃ fewer, links = fewer + 1 ∧
        Route look (start place target) (steps target ++ rest) fewer goal := by
  constructor
  · intro route
    cases route with
    | stay _ dot => exact absurd dot step.1
    | up _ dots => exact absurd dots step.2.1
    | enter _ _ found' notLink =>
        rw [found] at found'
        exact absurd (Option.some.inj found').symm (notLink _)
    | link _ _ found' onward =>
        rw [found, Option.some.injEq, Leaf.link.injEq] at found'
        subst found'
        exact ⟨_, rfl, onward⟩
  · rintro ⟨fewer, rfl, onward⟩
    exact .link there step found onward

/-- The piece `.` only asks for a directory. -/
theorem dot_iff {place goal : Place} {links : Nat} :
    Route look place ["."] links goal ↔
      links = 0 ∧ goal = place ∧ look place = some .folder := by
  constructor
  · intro route
    have there := route.folder_of_cons
    cases (stay_iff there).mp route
    exact ⟨rfl, rfl, there⟩
  · rintro ⟨rfl, rfl, there⟩
    exact .stay there rfl (.done _)

/-! ### Routes as a relation -/

/-- A route is determined by where it starts and by its pieces. -/
theorem deterministic {place first second : Place} {pieces : List String} {links links' : Nat}
    (route : Route look place pieces links first) (other : Route look place pieces links' second) :
    links = links' ∧ first = second := by
  induction route generalizing links' second with
  | done place =>
      cases other
      exact ⟨rfl, rfl⟩
  | stay there dot _ ih =>
      subst dot
      exact ih ((stay_iff there).mp other)
  | up there dots _ ih =>
      subst dots
      exact ih ((up_iff there).mp other)
  | enter there step found notLink _ ih => exact ih ((enter_iff there step found notLink).mp other)
  | link there step found _ ih =>
      obtain ⟨fewer, rfl, onward⟩ := (link_iff there step found).mp other
      have ⟨linksEq, goalEq⟩ := ih onward
      exact ⟨congrArg (· + 1) linksEq, goalEq⟩

/-- Two routes in a row. -/
theorem append {place middle goal : Place} {first second : List String} {m n : Nat}
    (route : Route look place first m middle) (onward : Route look middle second n goal) :
    Route look place (first ++ second) (m + n) goal := by
  induction route with
  | done place => simpa using onward
  | stay there dot _ ih => exact .stay there dot (ih onward)
  | up there dots _ ih => exact .up there dots (ih onward)
  | enter there step found notLink _ ih => exact .enter there step found notLink (ih onward)
  | link there step found _ ih =>
      rw [List.cons_append, Nat.add_right_comm]
      exact .link there step found (by simpa [List.append_assoc] using ih onward)

/-- A route along two runs of pieces comes by a place between them. -/
theorem split {place goal : Place} {first second : List String} {links : Nat}
    (route : Route look place (first ++ second) links goal) :
    ∃ middle m n, links = m + n ∧ Route look place first m middle ∧
      Route look middle second n goal := by
  generalize piecesEq : first ++ second = pieces at route
  induction route generalizing first with
  | done place =>
      obtain ⟨rfl, rfl⟩ := List.append_eq_nil_iff.mp piecesEq
      exact ⟨place, 0, 0, rfl, .done place, .done place⟩
  | stay there dot onward ih =>
      cases first with
      | nil =>
          obtain rfl : second = _ := piecesEq
          exact ⟨_, 0, _, (Nat.zero_add _).symm, .done _, .stay there dot onward⟩
      | cons piece first =>
          obtain ⟨rfl, restEq⟩ := List.cons.inj piecesEq
          obtain ⟨middle, m, n, linksEq, before, after⟩ := ih restEq
          exact ⟨middle, m, n, linksEq, .stay there dot before, after⟩
  | up there dots onward ih =>
      cases first with
      | nil =>
          obtain rfl : second = _ := piecesEq
          exact ⟨_, 0, _, (Nat.zero_add _).symm, .done _, .up there dots onward⟩
      | cons piece first =>
          obtain ⟨rfl, restEq⟩ := List.cons.inj piecesEq
          obtain ⟨middle, m, n, linksEq, before, after⟩ := ih restEq
          exact ⟨middle, m, n, linksEq, .up there dots before, after⟩
  | enter there step found notLink onward ih =>
      cases first with
      | nil =>
          obtain rfl : second = _ := piecesEq
          exact ⟨_, 0, _, (Nat.zero_add _).symm, .done _, .enter there step found notLink onward⟩
      | cons piece first =>
          obtain ⟨rfl, restEq⟩ := List.cons.inj piecesEq
          obtain ⟨middle, m, n, linksEq, before, after⟩ := ih restEq
          exact ⟨middle, m, n, linksEq, .enter there step found notLink before, after⟩
  | @link place goal piece target rest links there step found onward ih =>
      cases first with
      | nil =>
          obtain rfl : second = _ := piecesEq
          exact ⟨_, 0, _, (Nat.zero_add _).symm, .done _, .link there step found onward⟩
      | cons head first =>
          obtain ⟨rfl, restEq⟩ := List.cons.inj piecesEq
          have onwardEq : steps target ++ first ++ second = steps target ++ rest := by
            rw [List.append_assoc]
            exact congrArg _ restEq
          obtain ⟨middle, m, n, rfl, before, after⟩ := ih onwardEq
          exact ⟨middle, m + 1, n, by omega, .link there step found before, after⟩

/-- A route is still there if all that stood somewhere stands there still. -/
theorem mono {later : Place → Option Leaf} (kept : ∀ place, look place ≠ none → later place = look place)
    {place goal : Place} {pieces : List String} {links : Nat}
    (route : Route look place pieces links goal) : Route later place pieces links goal := by
  have stands : ∀ {place leaf}, look place = some leaf → later place = some leaf := by
    intro place leaf found
    rw [kept place (by simp [found]), found]
  induction route with
  | done place => exact .done place
  | stay there dot _ ih => exact .stay (stands there) dot ih
  | up there dots _ ih => exact .up (stands there) dots ih
  | enter there step found notLink _ ih => exact .enter (stands there) step (stands found) notLink ih
  | link there step found _ ih => exact .link (stands there) step (stands found) ih

end Route

/-! ## Following is finding a route -/

/-- Walking one more piece, if it is not one behind which a link may be left alone. -/
theorem walk_cons_of_more (root : Directory) (onLink : Place → String → List String → Except Cause Place)
    {last : Bool} (place : Place) (piece : String) {rest : List String} (more : rest = [] → last = false) :
    walk root onLink last place (piece :: rest) =
      match root.at? place with
      | some (.folder d) =>
          if piece = "." then walk root onLink last place rest
          else if piece = ".." then walk root onLink last place.dropLast rest
          else if maxNameBytes < piece.utf8ByteSize then .error .nameTooLong
          else match d.find? piece with
            | none => .error .missing
            | some (.link target) => onLink place target rest
            | some _ => walk root onLink last (place ++ [piece]) rest
      | _ => .error .notDirectory := by
  have followed : ¬ (rest = [] ∧ last = true) := by
    rintro ⟨empty, alone⟩
    rw [more empty] at alone
    cases alone
  have walked := walk.eq_def root onLink last place (piece :: rest)
  simp only [followed, if_false] at walked
  exact walked

/-- Following one more piece, if it is not one behind which a link may be left alone. -/
theorem follow_cons_of_more (root : Directory) {last : Bool} (n : Nat) (place : Place) (piece : String)
    {rest : List String} (more : rest = [] → last = false) :
    follow root last n place (piece :: rest) =
      match root.at? place with
      | some (.folder d) =>
          if piece = "." then follow root last n place rest
          else if piece = ".." then follow root last n place.dropLast rest
          else if maxNameBytes < piece.utf8ByteSize then .error .nameTooLong
          else match d.find? piece with
            | none => .error .missing
            | some (.link target) =>
                match n with
                | 0 => .error .tooManyLinks
                | m + 1 => follow root last m (start place target) (steps target ++ rest)
            | some _ => follow root last n (place ++ [piece]) rest
      | _ => .error .notDirectory := by
  cases n with
  | zero => exact walk_cons_of_more root _ place piece more
  | succ n => exact walk_cons_of_more root _ place piece more

/-- Following one more piece. -/
theorem follow_cons (root : Directory) (n : Nat) (place : Place) (piece : String)
    (rest : List String) :
    follow root false n place (piece :: rest) =
      match root.at? place with
      | some (.folder d) =>
          if piece = "." then follow root false n place rest
          else if piece = ".." then follow root false n place.dropLast rest
          else if maxNameBytes < piece.utf8ByteSize then .error .nameTooLong
          else match d.find? piece with
            | none => .error .missing
            | some (.link target) =>
                match n with
                | 0 => .error .tooManyLinks
                | m + 1 => follow root false m (start place target) (steps target ++ rest)
            | some _ => follow root false n (place ++ [piece]) rest
      | _ => .error .notDirectory :=
  follow_cons_of_more root n place piece fun _ => rfl

theorem follow_nil (root : Directory) (n : Nat) (place : Place) :
    follow root false n place [] = .ok place := by
  cases n <;> rfl

/-- Following pieces only goes where a route goes. -/
theorem route_of_follow {root : Directory} {n : Nat} {place goal : Place} {pieces : List String}
    (followed : follow root false n place pieces = .ok goal) :
    ∃ links ≤ n, Route root.look place pieces links goal := by
  induction n using Nat.strongRecOn generalizing place pieces goal with
  | ind n ihLinks =>
      induction pieces generalizing place with
      | nil =>
          rw [follow_nil, Except.ok.injEq] at followed
          subst goal
          exact ⟨0, Nat.zero_le n, .done place⟩
      | cons piece rest ih =>
          rw [follow_cons] at followed
          split at followed
          · rename_i d thereEq
            have there := (root.look_eq_folder_iff place).mpr ⟨d, thereEq⟩
            split at followed
            · rename_i dot
              obtain ⟨links, few, onward⟩ := ih followed
              exact ⟨links, few, .stay there dot onward⟩
            split at followed
            · rename_i dots
              obtain ⟨links, few, onward⟩ := ih followed
              exact ⟨links, few, .up there dots onward⟩
            split at followed
            · cases followed
            rename_i notDot notDots short
            have step : IsStep piece := ⟨notDot, notDots, Nat.le_of_not_lt short⟩
            have found := Directory.look_append_singleton thereEq piece
            cases entryEq : d.find? piece with
            | none =>
                rw [entryEq] at followed
                cases followed
            | some entry =>
                rw [entryEq] at followed found
                cases entry with
                | file contents =>
                    obtain ⟨links, few, onward⟩ := ih followed
                    exact ⟨links, few, .enter there step found (by simp [Entry.leaf]) onward⟩
                | folder inner =>
                    obtain ⟨links, few, onward⟩ := ih followed
                    exact ⟨links, few, .enter there step found (by simp [Entry.leaf]) onward⟩
                | link target =>
                    cases n with
                    | zero => cases followed
                    | succ m =>
                        obtain ⟨links, few, onward⟩ := ihLinks m (Nat.lt_succ_self m) followed
                        exact ⟨links + 1, Nat.succ_le_succ few, .link there step found onward⟩
          · cases followed

/-- Following pieces in front of others goes where their route goes, and on from there. -/
theorem Route.follow_append_of_more {root : Directory} {place goal : Place} {pieces : List String}
    {links : Nat} (route : Route root.look place pieces links goal) {last : Bool} {rest : List String}
    (more : rest = [] → last = false) (n : Nat) :
    follow root last n place (pieces ++ rest) =
      if links ≤ n then follow root last (n - links) goal rest else .error .tooManyLinks := by
  have further : ∀ others : List String, others ++ rest = [] → last = false :=
    fun others empty => more (List.append_eq_nil_iff.mp empty).2
  induction route generalizing n with
  | done place => rfl
  | stay there dot _ ih =>
      obtain ⟨d, thereEq⟩ := (root.look_eq_folder_iff _).mp there
      subst dot
      rw [List.cons_append, follow_cons_of_more _ _ _ _ (further _), thereEq]
      exact ih n
  | up there dots _ ih =>
      obtain ⟨d, thereEq⟩ := (root.look_eq_folder_iff _).mp there
      subst dots
      rw [List.cons_append, follow_cons_of_more _ _ _ _ (further _), thereEq]
      exact ih n
  | @enter place goal piece others links leaf there step found notLink _ ih =>
      obtain ⟨d, thereEq⟩ := (root.look_eq_folder_iff _).mp there
      rw [Directory.look_append_singleton thereEq] at found
      obtain ⟨entry, entryEq, rfl⟩ := Option.map_eq_some_iff.mp found
      have short : ¬ maxNameBytes < piece.utf8ByteSize := Nat.not_lt.mpr step.2.2
      rw [List.cons_append, follow_cons_of_more _ _ _ _ (further _), thereEq]
      simp only [if_neg step.1, if_neg step.2.1, if_neg short, entryEq]
      cases entry with
      | file contents => exact ih n
      | folder inner => exact ih n
      | link target => exact absurd rfl (notLink target)
  | @link place goal piece target others links there step found _ ih =>
      obtain ⟨d, thereEq⟩ := (root.look_eq_folder_iff _).mp there
      rw [Directory.look_append_singleton thereEq] at found
      obtain ⟨entry, entryEq, leafEq⟩ := Option.map_eq_some_iff.mp found
      have short : ¬ maxNameBytes < piece.utf8ByteSize := Nat.not_lt.mpr step.2.2
      rw [List.cons_append, follow_cons_of_more _ _ _ _ (further _), thereEq]
      simp only [if_neg step.1, if_neg step.2.1, if_neg short, entryEq]
      cases entry with
      | file contents => cases leafEq
      | folder inner => cases leafEq
      | link other =>
          cases leafEq
          cases n with
          | zero => rfl
          | succ m =>
              simp only [← List.append_assoc, ih m, Nat.add_le_add_iff_right, Nat.add_sub_add_right]

theorem Route.follow_append {root : Directory} {place goal : Place} {pieces : List String}
    {links : Nat} (route : Route root.look place pieces links goal) (rest : List String) (n : Nat) :
    follow root false n place (pieces ++ rest) =
      if links ≤ n then follow root false (n - links) goal rest else .error .tooManyLinks :=
  route.follow_append_of_more (fun _ => rfl) n

/-- A link at the end that is not followed is where the way ends. -/
theorem follow_entry {root : Directory} {place : Place} {name : String}
    (there : root.look place = some .folder) (step : IsStep name)
    (standing : root.look (place ++ [name]) ≠ none) (n : Nat) :
    follow root true n place [name] = .ok (place ++ [name]) := by
  obtain ⟨d, thereEq⟩ := (root.look_eq_folder_iff _).mp there
  have short : ¬ maxNameBytes < name.utf8ByteSize := Nat.not_lt.mpr step.2.2
  rw [Directory.look_append_singleton thereEq] at standing
  cases entryEq : d.find? name with
  | none => simp [entryEq] at standing
  | some entry => cases n <;> cases entry <;> simp [follow, walk, thereEq, step.1, step.2.1, short, entryEq]

/-- Following pieces goes where a route through few enough links goes. -/
theorem Route.follow_eq_ok {root : Directory} {place goal : Place} {pieces : List String}
    {links n : Nat} (route : Route root.look place pieces links goal) (few : links ≤ n) :
    follow root false n place pieces = .ok goal := by
  rw [← List.append_nil pieces, route.follow_append, if_pos few, follow_nil]

theorem follow_eq_ok_iff {root : Directory} {place goal : Place} {pieces : List String} {n : Nat} :
    follow root false n place pieces = .ok goal ↔
      ∃ links ≤ n, Route root.look place pieces links goal := by
  constructor
  · exact route_of_follow
  · rintro ⟨links, few, route⟩
    exact route.follow_eq_ok few

/-- A path leads to the goal of the route along its steps, if neither the path nor the route is too
long. -/
theorem resolve_eq_ok_iff {disk : Disk} {path : String} {goal : Place} :
    disk.resolve path = .ok goal ↔
      path ≠ "" ∧ path.utf8ByteSize ≤ maxPathBytes ∧
        ∃ links ≤ maxLinks, Route disk.look (start disk.here path) (steps path) links goal := by
  rw [resolve]
  split
  · rename_i empty
    simp [empty]
  · rename_i nonempty
    split
    · rename_i long
      simp [Nat.not_le.mpr long]
    · rename_i short
      rw [follow_eq_ok_iff]
      simp only [nonempty, not_false_eq_true, Nat.le_of_not_lt short, ne_eq, true_and]
      rfl

end StringAudit.Disk
