import StringAudit.Proofs.Writer

/-!
# What an action adds to the streams

No action looks at what was written before it.  On one disk it therefore ends alike, leaves the same
disk, and adds the same bytes to the streams, whatever they hold already.  This is kept by every way of
building an action from others.
-/

namespace StringAudit

namespace Console

/-- One console comes from another by adding bytes at the ends of its streams. -/
def Grows (added : Outlet → List UInt8) (earlier later : Console) : Prop :=
  ∀ outlet, later.written outlet = earlier.written outlet ++ added outlet

variable {added more : Outlet → List UInt8} {earlier middle later : Console}

theorem Grows.refl (c : Console) : Grows (fun _ => []) c c :=
  fun outlet => (List.append_nil (c.written outlet)).symm

theorem Grows.trans (first : Grows added earlier middle) (second : Grows more middle later) :
    Grows (fun outlet => added outlet ++ more outlet) earlier later := by
  intro outlet
  rw [second outlet, first outlet, List.append_assoc]

theorem grows_send (c : Console) (outlet : Outlet) (bytes : List UInt8) :
    Grows (fun other => if other = outlet then bytes else []) c (c.send outlet bytes) := by
  intro other
  rw [written_send]
  by_cases same : other = outlet
  · simp only [if_pos same]
  · simp only [if_neg same, List.append_nil]

/-- What was added to a console with nothing written is all that is written. -/
theorem Grows.written_eq {empty : Console} (grows : Grows added empty later)
    (nothing : ∀ outlet, empty.written outlet = []) (outlet : Outlet) :
    later.written outlet = added outlet := by
  rw [grows outlet, nothing outlet, List.nil_append]

end Console

namespace Action

variable {α β : Type}

/-- An action ends alike, leaves the same disk, and adds the same bytes to the streams, whatever was
written before it. -/
def Uniform (action : Action α) : Prop :=
  ∀ disk, ∃ result last added, ∀ console, ∃ later,
    action.perform ⟨disk, console⟩ = (result, ⟨last, later⟩) ∧ Console.Grows added console later

theorem Uniform.of_perform_eq {action : Action α} (change : Disk → Except Failure α × Disk)
    (changes : ∀ disk console,
      action.perform ⟨disk, console⟩ = ((change disk).1, ⟨(change disk).2, console⟩)) :
    action.Uniform :=
  fun disk => ⟨(change disk).1, (change disk).2, fun _ => [],
    fun console => ⟨console, changes disk console, .refl console⟩⟩

theorem Uniform.pure (a : α) : Uniform (Pure.pure a : Action α) :=
  .of_perform_eq (fun disk => (.ok a, disk)) fun _ _ => rfl

theorem Uniform.throw (failure : Failure) : Uniform (MonadExcept.throw failure : Action α) :=
  .of_perform_eq (fun disk => (.error failure, disk)) fun _ _ => rfl

theorem Uniform.ofResult (result : Except Failure α) : (Action.ofResult result).Uniform :=
  .of_perform_eq (fun disk => (result, disk)) fun _ _ => perform_ofResult result _

theorem Uniform.onDisk (change : Disk → Except Failure α × Disk) : (Action.onDisk change).Uniform :=
  .of_perform_eq change fun _ _ => perform_onDisk change _

theorem Uniform.bind {action : Action α} {next : α → Action β} (uniform : action.Uniform)
    (onward : ∀ a, (next a).Uniform) : (action >>= next).Uniform := by
  intro disk
  obtain ⟨result, middle, added, first⟩ := uniform disk
  cases result with
  | error failure =>
      refine ⟨.error failure, middle, added, fun console => ?_⟩
      obtain ⟨later, performed, grows⟩ := first console
      exact ⟨later, by rw [perform_bind, performed], grows⟩
  | ok a =>
      obtain ⟨result, last, more, second⟩ := onward a middle
      refine ⟨result, last, fun outlet => added outlet ++ more outlet, fun console => ?_⟩
      obtain ⟨between, performed, grows⟩ := first console
      obtain ⟨later, continued, growsOn⟩ := second between
      refine ⟨later, ?_, grows.trans growsOn⟩
      rw [perform_bind, performed]
      exact continued

theorem Uniform.outcome {action : Action α} (uniform : action.Uniform) : action.outcome.Uniform := by
  intro disk
  obtain ⟨result, last, added, each⟩ := uniform disk
  refine ⟨.ok result, last, added, fun console => ?_⟩
  obtain ⟨later, performed, grows⟩ := each console
  exact ⟨later, by rw [perform_outcome, performed], grows⟩

theorem Uniform.discard {action : Action α} (uniform : action.Uniform) :
    (Functor.discard action : Action Unit).Uniform := by
  intro disk
  obtain ⟨result, last, added, each⟩ := uniform disk
  refine ⟨result.map fun _ => (), last, added, fun console => ?_⟩
  obtain ⟨later, performed, grows⟩ := each console
  refine ⟨later, ?_, grows⟩
  rw [show (Functor.discard action : Action Unit) = (fun _ => ()) <$> action from rfl, perform_map,
    performed]

theorem Uniform.forM {items : List α} {step : α → Action Unit} (uniform : ∀ item, (step item).Uniform) :
    (items.forM step).Uniform := by
  induction items with
  | nil => exact .pure ()
  | cons item rest ih =>
      change (step item >>= fun _ => rest.forM step).Uniform
      exact .bind (uniform item) fun _ => ih

theorem Uniform.foldlM {items : List α} {step : β → α → Action β}
    (uniform : ∀ b item, (step b item).Uniform) (b : β) : (items.foldlM step b).Uniform := by
  induction items generalizing b with
  | nil => exact .pure b
  | cons item rest ih =>
      rw [List.foldlM_cons]
      exact .bind (uniform b item) ih

/-- Two runs end alike: with the same outcome and the same disk, and with the same bytes added to the
consoles that they are counted from. -/
def EndsAlike (first second : Except Failure α × RunState) (from₁ from₂ : Console) : Prop :=
  first.1 = second.1 ∧ first.2.disk = second.2.disk ∧
    ∃ added, Console.Grows added from₁ first.2.console ∧ Console.Grows added from₂ second.2.console

/-- A uniform action ends alike after whatever was written. -/
theorem Uniform.endsAlike {action : Action α} (uniform : action.Uniform) (disk : Disk)
    (console₁ console₂ : Console) :
    EndsAlike (action.perform ⟨disk, console₁⟩) (action.perform ⟨disk, console₂⟩) console₁ console₂ := by
  obtain ⟨result, last, added, each⟩ := uniform disk
  obtain ⟨later₁, performed₁, grows₁⟩ := each console₁
  obtain ⟨later₂, performed₂, grows₂⟩ := each console₂
  rw [performed₁, performed₂]
  exact ⟨rfl, rfl, added, grows₁, grows₂⟩

end Action

namespace Writer

theorem uniform_put (w : Writer) (text : WideText) : (w.put text).Uniform := by
  intro disk
  cases outcome : w.sending text with
  | error failure =>
      refine ⟨.error failure, disk, fun _ => [], fun console => ⟨console, ?_, .refl console⟩⟩
      rw [perform_put, outcome]
  | ok sent =>
      refine ⟨.ok (), disk, _, fun console => ⟨_, ?_, console.grows_send sent.1 sent.2⟩⟩
      rw [perform_put, outcome]

theorem uniform_write (w : Writer) (text : String) : (w.write text).Uniform :=
  w.uniform_put text

theorem uniform_announce (writer : Option Writer) (line : String) : (announce writer line).Uniform := by
  cases writer with
  | none => exact .pure ()
  | some w => exact w.uniform_write (line ++ "\n")

end Writer

end StringAudit
