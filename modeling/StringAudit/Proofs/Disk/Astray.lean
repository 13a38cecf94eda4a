import StringAudit.Proofs.Disk.Overwrite

/-!
# Paths that lead nowhere

Files put in the place of other files, or of links to them, do not help a path that led nowhere: it still
leads nowhere, and for the same cause.  The one exception is a path with too many links, which may come
to its end at a new file now and go no further from there.
-/

namespace StringAudit.Disk

/-- Nothing is found below what is no directory. -/
theorem follow_leaf {disk : Disk} {place : Place} (leaf : disk.look place ≠ some .folder) (n : Nat)
    (piece : String) (rest : List String) :
    follow disk.root false n place (piece :: rest) = .error .notDirectory := by
  rw [follow_cons]
  split
  · rename_i d thereEq
    exact absurd ((disk.root.look_eq_folder_iff place).mpr ⟨d, thereEq⟩) leaf
  · rfl

/-- What following does at a directory depends on what stands there alone. -/
theorem follow_folder {disk : Disk} {place : Place} (there : disk.look place = some .folder)
    (n : Nat) (piece : String) (rest : List String) :
    follow disk.root false n place (piece :: rest) =
      if piece = "." then follow disk.root false n place rest
      else if piece = ".." then follow disk.root false n place.dropLast rest
      else if maxNameBytes < piece.utf8ByteSize then .error .nameTooLong
      else match disk.look (place ++ [piece]) with
        | none => .error .missing
        | some (.link target) =>
            match n with
            | 0 => .error .tooManyLinks
            | m + 1 => follow disk.root false m (start place target) (steps target ++ rest)
        | some _ => follow disk.root false n (place ++ [piece]) rest := by
  obtain ⟨d, thereEq⟩ := (disk.root.look_eq_folder_iff place).mp there
  rw [follow_cons, thereEq, look, Directory.look_append_singleton thereEq]
  simp only
  cases d.find? piece with
  | none => rfl
  | some entry => cases entry <;> rfl

namespace Refiles

variable {after before : Disk} {spots : List Place}

theorem leaf_after (refiles : Refiles after before spots) {place : Place}
    (leaf : before.look place ≠ some .folder) : after.look place ≠ some .folder :=
  fun there => leaf (refiles.folder_before there)

/-- Following fails below an entry at a spot for the same cause, unless there are too many links. -/
theorem follow_spot (refiles : Refiles after before spots) {place : Place} {piece : String}
    (new : place ++ [piece] ∈ spots) {n : Nat} {rest : List String} {cause : Cause}
    (failed : follow before.root false n place (piece :: rest) = .error cause)
    (few : cause ≠ .tooManyLinks) :
    follow after.root false n (place ++ [piece]) rest = .error cause := by
  obtain ⟨links, goal, ⟨holder, name, spotEq, route⟩, leaf⟩ := refiles.old _ new
  obtain ⟨rfl, pieceEq⟩ := List.append_inj' spotEq rfl
  obtain rfl := List.singleton_inj.mp pieceEq
  have whole := Route.follow_append route rest n
  rw [List.singleton_append, failed] at whole
  split at whole
  · cases rest with
    | nil =>
        rw [follow_nil] at whole
        cases whole
    | cons next others =>
        rw [follow_leaf leaf] at whole
        cases whole
        exact follow_leaf (refiles.leaf new) n next others
  · exact absurd (Except.error.inj whole) few

/-- Following fails for the same cause, unless there were too many links. -/
theorem follow_error (refiles : Refiles after before spots) {n : Nat} {place : Place}
    {pieces : List String} {cause : Cause}
    (failed : follow before.root false n place pieces = .error cause) (few : cause ≠ .tooManyLinks) :
    follow after.root false n place pieces = .error cause := by
  induction n using Nat.strongRecOn generalizing place pieces with
  | ind n ihLinks =>
      induction pieces generalizing place with
      | nil =>
          rw [follow_nil] at failed
          cases failed
      | cons piece rest ih =>
          by_cases leaf : before.look place ≠ some .folder
          · rw [follow_leaf leaf] at failed
            rw [follow_leaf (refiles.leaf_after leaf), failed]
          have there := Classical.not_not.mp leaf
          have whole := failed
          rw [follow_folder there] at failed
          rw [follow_folder (refiles.folder_after there)]
          split
          · rename_i dot
            rw [if_pos dot] at failed
            exact ih failed
          rename_i notDot
          rw [if_neg notDot] at failed
          split
          · rename_i dots
            rw [if_pos dots] at failed
            exact ih failed
          rename_i notDots
          rw [if_neg notDots] at failed
          split
          · rename_i long
            rwa [if_pos long] at failed
          rename_i short
          rw [if_neg short] at failed
          by_cases new : place ++ [piece] ∈ spots
          · obtain ⟨contents, file⟩ := refiles.file _ new
            rw [file]
            exact refiles.follow_spot new whole few
          · rw [refiles.look_eq _ new]
            cases found : before.look (place ++ [piece]) with
            | none =>
                rw [found] at failed
                exact failed
            | some leaf =>
                rw [found] at failed
                cases leaf with
                | link target =>
                    cases n with
                    | zero => exact failed
                    | succ m => exact ihLinks m (Nat.lt_succ_self m) failed
                | _ => exact ih failed

/-- A path leads nowhere for the same cause, unless there were too many links. -/
theorem resolve_error (refiles : Refiles after before spots) {path : String} {cause : Cause}
    (failed : before.resolve path = .error cause) (few : cause ≠ .tooManyLinks) :
    after.resolve path = .error cause := by
  rw [resolve] at failed ⊢
  split
  · rename_i empty
    rwa [if_pos empty] at failed
  rename_i nonempty
  rw [if_neg nonempty] at failed
  split
  · rename_i long
    rwa [if_pos long] at failed
  rename_i short
  rw [if_neg short] at failed
  rw [refiles.here_eq]
  exact refiles.follow_error failed few

end Refiles

/-! ## What a path leads to -/

/-- A directory or a file stands at a place. -/
def Solid (disk : Disk) (place : Place) : Prop :=
  disk.look place = some .folder ∨ ∃ contents, disk.look place = some (.file contents)

/-- A way from a directory or a file leads to one. -/
theorem Route.solid {disk : Disk} {place goal : Place} {pieces : List String} {links : Nat}
    (route : Route disk.look place pieces links goal) (stands : disk.Solid place) : disk.Solid goal := by
  induction route with
  | done => exact stands
  | stay _ _ _ ih => exact ih stands
  | up there _ _ ih => exact ih (Or.inl (look_dropLast there))
  | @enter _ _ _ _ _ leaf _ _ found notLink _ ih =>
      apply ih
      cases leaf with
      | file contents => exact Or.inr ⟨contents, found⟩
      | link target => exact absurd rfl (notLink target)
      | folder => exact Or.inl found
  | @link place _ _ target _ _ there _ _ _ ih =>
      apply ih
      rw [start]
      split
      · exact Or.inl rfl
      · exact Or.inl there

/-- A path that leads anywhere leads to a directory or to a file. -/
theorem solid_of_resolve {disk : Disk} {p : Path} (proper : p.Proper) {goal : Place}
    (resolved : disk.resolve p.text = .ok goal) : disk.Solid goal := by
  obtain ⟨_, ⟨links, _, leads⟩, top⟩ := (resolve_text_eq_ok_iff proper).mp resolved
  by_cases nameless : p.names = []
  · exact Or.inl (top nameless)
  · obtain ⟨piece, rest, namesEq⟩ := List.exists_cons_of_ne_nil nameless
    have start := leads
    rw [Leads, namesEq] at start
    exact leads.solid (Or.inl start.folder_of_cons)

end StringAudit.Disk
