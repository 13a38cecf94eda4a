import StringAudit.Action

/-!
# What an action does

`perform` turns an action into a function on states.  There is one equation here for each way of
building an action, so that no later proof opens the monad, and the rule by which what one step of a
loop keeps is kept by the whole loop.
-/

namespace StringAudit

/-- Two results in sequence succeed exactly when both do. -/
theorem Except.bind_eq_ok_iff {ε α β : Type} {first : Except ε α} {next : α → Except ε β} {b : β} :
    (first >>= next) = .ok b ↔ ∃ a, first = .ok a ∧ next a = .ok b := by
  cases first with
  | error e => simp [bind, Except.bind]
  | ok a => simp [bind, Except.bind]

theorem Except.mapError_eq_ok_iff {ε δ α : Type} {f : ε → δ} {result : Except ε α} {a : α} :
    result.mapError f = .ok a ↔ result = .ok a := by
  cases result with
  | error e => exact iff_of_false nofun nofun
  | ok value =>
      constructor
      all_goals
        intro same
        cases same
        rfl

theorem Except.mapError_eq_error_iff {ε δ α : Type} {f : ε → δ} {result : Except ε α} {d : δ} :
    result.mapError f = .error d ↔ ∃ e, result = .error e ∧ f e = d := by
  cases result with
  | error e =>
      constructor
      · intro same
        exact ⟨e, rfl, Except.error.inj same⟩
      · rintro ⟨_, failed, rfl⟩
        cases failed
        rfl
  | ok value => exact iff_of_false nofun nofun

namespace Action

variable {α β : Type}

@[simp]
theorem perform_pure (a : α) (state : RunState) :
    (pure a : Action α).perform state = (.ok a, state) :=
  rfl

@[simp]
theorem perform_throw (failure : Failure) (state : RunState) :
    (throw failure : Action α).perform state = (.error failure, state) :=
  rfl

theorem perform_bind (action : Action α) (next : α → Action β) (state : RunState) :
    (action >>= next).perform state =
      match action.perform state with
      | (.ok a, after) => (next a).perform after
      | (.error failure, after) => (.error failure, after) := by
  simp only [perform, bind, ExceptT.bind, ExceptT.run, ExceptT.mk, StateT.bind, StateT.run]
  rcases action state with ⟨_ | _, _⟩ <;> rfl

/-- A sequence of two actions succeeds exactly when both do, the second one in the state that the
first one leaves. -/
theorem perform_bind_eq_ok_iff {action : Action α} {next : α → Action β} {state after : RunState}
    {b : β} :
    (action >>= next).perform state = (.ok b, after) ↔
      ∃ a between, action.perform state = (.ok a, between) ∧
        (next a).perform between = (.ok b, after) := by
  rw [perform_bind]
  rcases action.perform state with ⟨failure | a, between⟩
  · simp
  · constructor
    · intro continued
      exact ⟨a, between, rfl, continued⟩
    · rintro ⟨a', between', first, continued⟩
      cases first
      exact continued

/-- A sequence of two actions fails exactly when the first one does, or the second one in the state
that the first one leaves. -/
theorem perform_bind_eq_error_iff {action : Action α} {next : α → Action β} {state after : RunState}
    {failure : Failure} :
    (action >>= next).perform state = (.error failure, after) ↔
      action.perform state = (.error failure, after) ∨
        ∃ a between, action.perform state = (.ok a, between) ∧
          (next a).perform between = (.error failure, after) := by
  rw [perform_bind]
  rcases action.perform state with ⟨failure' | a, between⟩
  · simp
  · constructor
    · intro continued
      exact Or.inr ⟨a, between, rfl, continued⟩
    · rintro (first | ⟨a', between', first, continued⟩)
      · cases first
      · cases first
        exact continued

/-- Actions that go on from the same one fail alike if they go on alike. -/
theorem perform_bind_eq_error_congr {action : Action α} {next other : α → Action β}
    {state after : RunState} {failure : Failure}
    (alike : ∀ a between, action.perform state = (.ok a, between) →
      ((next a).perform between = (.error failure, after) ↔
        (other a).perform between = (.error failure, after))) :
    (action >>= next).perform state = (.error failure, after) ↔
      (action >>= other).perform state = (.error failure, after) := by
  rw [perform_bind_eq_error_iff, perform_bind_eq_error_iff]
  refine or_congr_right (exists_congr fun a => exists_congr fun between => ?_)
  exact and_congr_right (alike a between)

@[simp]
theorem perform_map (f : α → β) (action : Action α) (state : RunState) :
    (f <$> action).perform state = ((action.perform state).1.map f, (action.perform state).2) := by
  simp only [perform, Functor.map, ExceptT.map, ExceptT.run, ExceptT.mk, StateT.run, bind, StateT.bind]
  rcases action state with ⟨_ | _, _⟩ <;> rfl

/-- Discarding the value of an action changes nothing else. -/
theorem perform_discard_eq_ok_iff {action : Action α} {state after : RunState} :
    (discard action : Action Unit).perform state = (.ok (), after) ↔
      ∃ a, action.perform state = (.ok a, after) := by
  rw [show (discard action : Action Unit) = (fun _ => ()) <$> action from rfl, perform_map]
  rcases action.perform state with ⟨failure | a, between⟩
  · simp [Except.map]
  · simp [Except.map]

/-- Discarding the value of an action leaves its failure. -/
theorem perform_discard_eq_error_iff {action : Action α} {state after : RunState} {failure : Failure} :
    (discard action : Action Unit).perform state = (.error failure, after) ↔
      action.perform state = (.error failure, after) := by
  rw [show (discard action : Action Unit) = (fun _ => ()) <$> action from rfl, perform_map]
  rcases action.perform state with ⟨failure | a, between⟩
  · simp [Except.map]
  · simp [Except.map]

@[simp]
theorem perform_ofResult (result : Except Failure α) (state : RunState) :
    (ofResult result).perform state = (result, state) := by
  cases result <;> rfl

@[simp]
theorem perform_ask (look : Disk → Except Failure α) (state : RunState) :
    (ask look).perform state = (look state.disk, state) := by
  simp only [ask, perform_bind]
  exact perform_ofResult _ _

@[simp]
theorem perform_onDisk (change : Disk → Except Failure α × Disk) (state : RunState) :
    (onDisk change).perform state =
      ((change state.disk).1, { state with disk := (change state.disk).2 }) := by
  simp only [onDisk, perform_bind]
  exact perform_ofResult _ _

@[simp]
theorem perform_onStream (outlet : Outlet) (change : Stream → Stream) (state : RunState) :
    (onStream outlet change).perform state =
      (.ok (), { state with console := state.console.change outlet change }) :=
  rfl

@[simp]
theorem perform_outcome (action : Action α) (state : RunState) :
    action.outcome.perform state = (.ok (action.perform state).1, (action.perform state).2) := by
  simp only [outcome, perform, tryCatch, tryCatchThe, MonadExceptOf.tryCatch, ExceptT.tryCatch,
    Functor.map, ExceptT.map, ExceptT.run, ExceptT.mk, StateT.run, bind, StateT.bind]
  rcases action state with ⟨_ | _, _⟩ <;> rfl

/-- What follows the outcome of an action follows it in any case. -/
theorem perform_outcome_bind (action : Action α) (next : Except Failure α → Action β)
    (state : RunState) :
    (action.outcome >>= next).perform state =
      (next (action.perform state).1).perform (action.perform state).2 := by
  rw [perform_bind, perform_outcome]

/-! ## Loops -/

/-- What every step of a loop keeps, the loop keeps.  The invariant sees the items that are still to
come. -/
theorem perform_foldlM_invariant {step : β → α → Action β}
    (invariant : List α → β → RunState → Prop)
    (kept : ∀ item rest b before b' after, invariant (item :: rest) b before →
      (step b item).perform before = (.ok b', after) → invariant rest b' after)
    {items : List α} {b : β} {before : RunState} {b' : β} {after : RunState}
    (start : invariant items b before)
    (looped : (items.foldlM step b).perform before = (.ok b', after)) :
    invariant [] b' after := by
  induction items generalizing b before with
  | nil =>
      rw [List.foldlM_nil, perform_pure, Prod.mk.injEq, Except.ok.injEq] at looped
      obtain ⟨rfl, rfl⟩ := looped
      exact start
  | cons item rest ih =>
      rw [List.foldlM_cons, perform_bind_eq_ok_iff] at looped
      obtain ⟨next, between, stepped, continued⟩ := looped
      exact ih (kept item rest b before next between start stepped) continued

/-- A loop succeeds, and an invariant holds in the end, if every step succeeds under the invariant and
keeps it. -/
theorem exists_perform_foldlM {step : β → α → Action β} (invariant : List α → β → RunState → Prop)
    (succeeds : ∀ item rest b before, invariant (item :: rest) b before →
      ∃ b' after, (step b item).perform before = (.ok b', after) ∧ invariant rest b' after)
    {items : List α} {b : β} {before : RunState} (start : invariant items b before) :
    ∃ b' after, (items.foldlM step b).perform before = (.ok b', after) ∧ invariant [] b' after := by
  induction items generalizing b before with
  | nil => exact ⟨b, before, rfl, start⟩
  | cons item rest ih =>
      obtain ⟨next, between, stepped, kept⟩ := succeeds item rest b before start
      obtain ⟨last, after, continued, ended⟩ := ih kept
      refine ⟨last, after, ?_, ended⟩
      rw [List.foldlM_cons, perform_bind_eq_ok_iff]
      exact ⟨next, between, stepped, continued⟩

/-- A loop fails only by one of its steps. -/
theorem exists_step_of_perform_foldlM_eq_error {step : β → α → Action β} {items : List α} {b : β}
    {before after : RunState} {failure : Failure}
    (looped : (items.foldlM step b).perform before = (.error failure, after)) :
    ∃ item ∈ items, ∃ earlier between,
      (step earlier item).perform between = (.error failure, after) := by
  induction items generalizing b before with
  | nil => cases looped
  | cons item rest ih =>
      rw [List.foldlM_cons, perform_bind_eq_error_iff] at looped
      rcases looped with failed | ⟨next, between, _, continued⟩
      · exact ⟨item, List.mem_cons_self, b, before, failed⟩
      · obtain ⟨other, mem, found⟩ := ih continued
        exact ⟨other, List.mem_cons_of_mem item mem, found⟩

/-- A loop without a value fails only by one of its steps, too. -/
theorem exists_step_of_perform_forM_eq_error {step : α → Action Unit} {items : List α}
    {before after : RunState} {failure : Failure}
    (looped : (items.forM step).perform before = (.error failure, after)) :
    ∃ item ∈ items, ∃ between, (step item).perform between = (.error failure, after) := by
  induction items generalizing before with
  | nil => cases looped
  | cons item rest ih =>
      rcases perform_bind_eq_error_iff.mp looped with failed | ⟨_, between, _, continued⟩
      · exact ⟨item, List.mem_cons_self, before, failed⟩
      · obtain ⟨other, mem, found⟩ := ih continued
        exact ⟨other, List.mem_cons_of_mem item mem, found⟩

end Action

end StringAudit
