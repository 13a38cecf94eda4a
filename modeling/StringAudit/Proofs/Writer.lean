import StringAudit.Proofs.Action
import StringAudit.Writer

/-!
# What a writer sends

Writing a text sends one run of bytes to one stream, or fails and sends nothing: `sending` says which, and
`delivery` says it of a text that is not torn.  Nothing that is written changes the disk, and a stream only
ever grows.
-/

namespace StringAudit

namespace Console

/-- The bytes of a stream, those among them that its text layer still holds back. -/
def written (c : Console) (outlet : Outlet) : List UInt8 :=
  (c.stream outlet).flush.sent

/-- One console continues another: every stream has the bytes of the other first. -/
def Continues (later earlier : Console) : Prop :=
  ∀ outlet, earlier.written outlet <+: later.written outlet

theorem Continues.refl (c : Console) : c.Continues c :=
  fun _ => List.prefix_rfl

theorem Continues.trans {last middle first : Console} (later : last.Continues middle)
    (earlier : middle.Continues first) : last.Continues first :=
  fun outlet => (earlier outlet).trans (later outlet)

/-- Send bytes to the stream at an outlet. -/
def send (c : Console) (outlet : Outlet) (bytes : List UInt8) : Console :=
  c.change outlet (·.send bytes)

theorem written_send (c : Console) (outlet other : Outlet) (bytes : List UInt8) :
    (c.send outlet bytes).written other =
      if other = outlet then c.written other ++ bytes else c.written other := by
  cases outlet <;> cases other <;> simp [send, written, change, stream, Stream.send, Stream.flush]

/-- Bytes that are sent one after the other are sent together. -/
theorem send_send (c : Console) (outlet : Outlet) (first second : List UInt8) :
    (c.send outlet first).send outlet second = c.send outlet (first ++ second) := by
  cases outlet <;> simp [send, change, Stream.send, Stream.flush]

theorem continues_send (c : Console) (outlet : Outlet) (bytes : List UInt8) :
    (c.send outlet bytes).Continues c := by
  intro other
  rw [written_send]
  split
  · exact List.prefix_append _ _
  · exact List.prefix_rfl

end Console

/-! ## Actions that only look -/

namespace Action

variable {α β : Type}

/-- Whatever its outcome, an action leaves the disk as it is and only adds to the streams, and the
outcome depends on the disk alone. -/
structure LooksOnly (action : Action α) : Prop where
  disk_eq : ∀ state, (action.perform state).2.disk = state.disk
  continues : ∀ state, (action.perform state).2.console.Continues state.console
  outcome_eq : ∀ (state : RunState) (console : Console),
    (action.perform { state with console }).1 = (action.perform state).1

theorem LooksOnly.of_perform_eq {action : Action α} (look : Disk → Except Failure α)
    (looks : ∀ state, action.perform state = (look state.disk, state)) : action.LooksOnly where
  disk_eq := fun state => by rw [looks]
  continues := fun state => by rw [looks]; exact .refl _
  outcome_eq := fun state console => by rw [looks, looks]

theorem LooksOnly.pure (a : α) : LooksOnly (Pure.pure a : Action α) :=
  .of_perform_eq (fun _ => .ok a) fun _ => rfl

theorem LooksOnly.throw (failure : Failure) : LooksOnly (MonadExcept.throw failure : Action α) :=
  .of_perform_eq (fun _ => .error failure) fun _ => rfl

theorem LooksOnly.ofResult (result : Except Failure α) : (Action.ofResult result).LooksOnly :=
  .of_perform_eq (fun _ => result) (perform_ofResult result)

theorem LooksOnly.ask (look : Disk → Except Failure α) : (Action.ask look).LooksOnly :=
  .of_perform_eq look (perform_ask look)

theorem LooksOnly.bind {action : Action α} {next : α → Action β} (looks : action.LooksOnly)
    (onward : ∀ a, (next a).LooksOnly) : (action >>= next).LooksOnly where
  disk_eq := by
    intro state
    have first := looks.disk_eq state
    rw [perform_bind]
    rcases performed : action.perform state with ⟨failure | a, between⟩
    · rwa [performed] at first
    · rw [performed] at first
      exact ((onward a).disk_eq between).trans first
  continues := by
    intro state
    have first := looks.continues state
    rw [perform_bind]
    rcases performed : action.perform state with ⟨failure | a, between⟩
    · rwa [performed] at first
    · rw [performed] at first
      exact ((onward a).continues between).trans first
  outcome_eq := by
    intro state console
    have first := looks.outcome_eq state console
    have sameDisk := (looks.disk_eq { state with console }).trans (looks.disk_eq state).symm
    rw [perform_bind, perform_bind]
    rcases performed : action.perform state with ⟨failure | a, ⟨disk, streams⟩⟩
    · rcases again : action.perform { state with console } with ⟨failure' | a', between⟩
      · rw [performed, again] at first
        exact congrArg Except.error (Except.error.inj first)
      · rw [performed, again] at first
        cases first
    · rcases again : action.perform { state with console } with ⟨failure' | a', ⟨disk', streams'⟩⟩
      · rw [performed, again] at first
        cases first
      · rw [performed, again] at first sameDisk
        obtain rfl : a' = a := Except.ok.inj first
        obtain rfl : disk' = disk := sameDisk
        exact (onward a').outcome_eq ⟨disk', streams⟩ streams'

theorem LooksOnly.forM {items : List α} {step : α → Action Unit}
    (looks : ∀ item ∈ items, (step item).LooksOnly) : (items.forM step).LooksOnly := by
  induction items with
  | nil => exact .pure _
  | cons item rest ih =>
      change (step item >>= fun _ => rest.forM step).LooksOnly
      exact .bind (looks item List.mem_cons_self) fun _ =>
        ih fun other mem => looks other (List.mem_cons_of_mem item mem)

theorem LooksOnly.foldlM {items : List α} {step : β → α → Action β}
    (looks : ∀ b, ∀ item ∈ items, (step b item).LooksOnly) (b : β) :
    (items.foldlM step b).LooksOnly := by
  induction items generalizing b with
  | nil => exact .pure _
  | cons item rest ih =>
      rw [List.foldlM_cons]
      exact .bind (looks b item List.mem_cons_self) fun next =>
        ih (fun b other mem => looks b other (List.mem_cons_of_mem item mem)) next

/-- What an action that only looks leaves behind. -/
theorem LooksOnly.frame {action : Action α} (looks : action.LooksOnly) {before after : RunState}
    {result : Except Failure α} (performed : action.perform before = (result, after)) :
    after.disk = before.disk ∧ after.console.Continues before.console := by
  have disk := looks.disk_eq before
  have streams := looks.continues before
  rw [performed] at disk streams
  exact ⟨disk, streams⟩

/-! ### What such an action sees -/

/-- The outcome of an action on a disk, with nothing written yet. -/
def seen (action : Action α) (disk : Disk) : Except Failure α :=
  (action.perform { disk }).1

theorem LooksOnly.perform_fst {action : Action α} (looks : action.LooksOnly) (state : RunState) :
    (action.perform state).1 = action.seen state.disk :=
  looks.outcome_eq { disk := state.disk } state.console

/-- Whether the action succeeds is seen on the disk. -/
theorem LooksOnly.exists_perform_eq_ok_iff {action : Action α} (looks : action.LooksOnly)
    {state : RunState} {a : α} :
    (∃ after, action.perform state = (.ok a, after)) ↔ action.seen state.disk = .ok a := by
  rw [← looks.perform_fst state]
  constructor
  · rintro ⟨after, performed⟩
    rw [performed]
  · intro outcome
    exact ⟨_, Prod.ext outcome rfl⟩

@[simp]
theorem seen_pure (a : α) (disk : Disk) : (pure a : Action α).seen disk = .ok a :=
  rfl

@[simp]
theorem seen_throw (failure : Failure) (disk : Disk) :
    (throw failure : Action α).seen disk = .error failure :=
  rfl

@[simp]
theorem seen_ask (look : Disk → Except Failure α) (disk : Disk) : (ask look).seen disk = look disk := by
  rw [seen, perform_ask]

/-- Two actions in sequence see the same disk. -/
theorem LooksOnly.seen_bind {action : Action α} {next : α → Action β} (looks : action.LooksOnly)
    (onward : ∀ a, (next a).LooksOnly) (disk : Disk) :
    (action >>= next).seen disk = action.seen disk >>= fun a => (next a).seen disk := by
  have sameDisk := looks.disk_eq { disk }
  rw [seen, perform_bind, seen]
  rcases performed : action.perform { disk } with ⟨failure | a, between⟩
  · rfl
  · rw [performed] at sameDisk
    exact ((onward a).perform_fst between).trans (congrArg _ sameDisk)

theorem LooksOnly.seen_bind_eq_ok_iff {action : Action α} {next : α → Action β}
    (looks : action.LooksOnly) (onward : ∀ a, (next a).LooksOnly) {disk : Disk} {b : β} :
    (action >>= next).seen disk = .ok b ↔
      ∃ a, action.seen disk = .ok a ∧ (next a).seen disk = .ok b := by
  rw [looks.seen_bind onward, Except.bind_eq_ok_iff]

/-- An action that is told what a disk shows. -/
theorem seen_ask_bind_eq_ok_iff {look : Disk → Except Failure α} {next : α → Action β}
    (looks : ∀ a, (next a).LooksOnly) {disk : Disk} {b : β} :
    (ask look >>= next).seen disk = .ok b ↔ ∃ a, look disk = .ok a ∧ (next a).seen disk = .ok b := by
  rw [(LooksOnly.ask look).seen_bind_eq_ok_iff looks, seen_ask]

/-! ### Actions that send -/

/-- An action succeeds, and does nothing but send bytes to one stream. -/
def Sends (action : Action Unit) (outlet : Outlet) (bytes : List UInt8) : Prop :=
  ∀ before, action.perform before =
    (.ok (), { before with console := before.console.send outlet bytes })

variable {outlet : Outlet} {bytes more : List UInt8}

theorem Sends.bytes_eq {action : Action Unit} (sends : action.Sends outlet bytes)
    (again : action.Sends outlet more) : bytes = more := by
  let before : RunState := { disk := { root := .empty, here := [] } }
  have same := congrArg (fun outcome => outcome.2.console.written outlet)
    ((sends before).symm.trans (again before))
  simp only [Console.written_send, if_pos] at same
  exact List.append_cancel_left same

theorem Sends.bind {first second : Action Unit} (sends : first.Sends outlet bytes)
    (onward : second.Sends outlet more) : (first >>= fun _ => second).Sends outlet (bytes ++ more) := by
  intro before
  rw [perform_bind, sends before, ← Console.send_send]
  exact onward _

theorem Sends.bind_pure {action : Action Unit} (sends : action.Sends outlet bytes) :
    (action >>= fun _ => Pure.pure ()).Sends outlet bytes := by
  intro before
  rw [perform_bind, sends before]
  rfl

/-- A loop sends what its steps send, if it has any: without a step not even what the text layer holds back
is sent. -/
theorem Sends.forM {items : List α} {step : α → Action Unit} {share : α → List UInt8}
    (nonempty : items ≠ []) (sends : ∀ item ∈ items, (step item).Sends outlet (share item)) :
    (items.forM step).Sends outlet (items.flatMap share) := by
  induction items with
  | nil => exact absurd rfl nonempty
  | cons item rest ih =>
      obtain ⟨first, others⟩ := List.forall_mem_cons.mp sends
      by_cases last : rest = []
      · subst last
        rw [List.flatMap_singleton]
        exact first.bind_pure
      · rw [List.flatMap_cons]
        exact first.bind (ih last others)

end Action

namespace Writer

variable [Codecs]

/-- The stream and the bytes that writing a wide text comes to: the text itself, or else its diagnostic. -/
def sending (w : Writer) (text : WideText) : Except Failure (Outlet × List UInt8) :=
  match Codecs.encode w.charset text with
  | .ok bytes => .ok (w.outlet, bytes)
  | .error .unusableName => .error (.breakdown .unusableCharset)
  | .error _ =>
      match Codecs.encode w.charset (w.diagnostic text) with
      | .ok bytes => .ok (w.alarm, bytes)
      | .error .unusableName => .error (.breakdown .unusableCharset)
      | .error _ =>
          .error (.unreportable
            ("failed to write to stderr with string: " ++ Text.quotedAscii (w.diagnostic text)))

/-- The stream and the bytes that writing a text comes to. -/
def delivery (w : Writer) (text : String) : Except Failure (Outlet × List UInt8) :=
  w.sending text

/-- Writing a wide text is sending what it comes to. -/
theorem perform_put (w : Writer) (text : WideText) (state : RunState) :
    (w.put text).perform state =
      match w.sending text with
      | .ok (outlet, bytes) => (.ok (), { state with console := state.console.send outlet bytes })
      | .error failure => (.error failure, state) := by
  rw [put, sending]
  cases encoded : Codecs.encode w.charset text with
  | ok bytes => rfl
  | error fault =>
      cases fault with
      | unusableName => rfl
      | _ =>
          rw [warn]
          cases Codecs.encode w.charset (w.diagnostic text) with
          | ok bytes => rfl
          | error fault => cases fault <;> rfl

/-- A text that can be encoded is sent to the outlet. -/
theorem perform_put_of_encode {w : Writer} {text : WideText} {bytes : List UInt8}
    (encoded : Codecs.encode w.charset text = .ok bytes) (state : RunState) :
    (w.put text).perform state = (.ok (), { state with console := state.console.send w.outlet bytes }) := by
  rw [perform_put, sending, encoded]

/-- Writing a text is sending its delivery. -/
theorem perform_write (w : Writer) (text : String) (state : RunState) :
    (w.write text).perform state =
      match w.delivery text with
      | .ok (outlet, bytes) => (.ok (), { state with console := state.console.send outlet bytes })
      | .error failure => (.error failure, state) :=
  w.perform_put text state

/-- A text was written between two states of the console: its delivery is part of what was added. -/
def Wrote (w : Writer) (text : String) (earlier later : Console) : Prop :=
  ∃ outlet bytes, ∃ between : Console,
    w.delivery text = .ok (outlet, bytes) ∧ between.Continues earlier ∧
      later.Continues (between.send outlet bytes)

/-- What was written between two states was written between any earlier and any later one. -/
theorem Wrote.mono {w : Writer} {text : String} {earlier later first last : Console}
    (wrote : w.Wrote text earlier later) (before : earlier.Continues first)
    (after : last.Continues later) :
    w.Wrote text first last := by
  obtain ⟨outlet, bytes, between, sent, continues, continued⟩ := wrote
  exact ⟨outlet, bytes, between, sent, continues.trans before, after.trans continued⟩

/-- Writing leaves the disk as it is and only adds to the streams. -/
theorem looksOnly_put (w : Writer) (text : WideText) : (w.put text).LooksOnly where
  disk_eq := by
    intro state
    rw [perform_put]
    cases w.sending text <;> rfl
  continues := by
    intro state
    rw [perform_put]
    cases w.sending text with
    | ok delivered => exact Console.continues_send _ _ _
    | error failure => exact .refl _
  outcome_eq := by
    intro state console
    rw [perform_put, perform_put]
    cases w.sending text <;> rfl

theorem looksOnly_write (w : Writer) (text : String) : (w.write text).LooksOnly :=
  w.looksOnly_put text

theorem looksOnly_announce (writer : Option Writer) (line : String) :
    (announce writer line).LooksOnly := by
  cases writer with
  | none => exact .pure _
  | some w => exact looksOnly_write w _

/-- A line can be written, if there is a writer for it. -/
def CanAnnounce (writer : Option Writer) (line : String) : Prop :=
  ∀ w, writer = some w → ∃ sent, w.delivery (line ++ "\n") = .ok sent

theorem seen_announce_eq_ok_iff {writer : Option Writer} {line : String} {disk : Disk} :
    (announce writer line).seen disk = .ok () ↔ CanAnnounce writer line := by
  cases writer with
  | none => simp [announce, CanAnnounce]
  | some w =>
      rw [announce, writeLine, Action.seen, perform_write, CanAnnounce]
      cases sent : w.delivery (line ++ "\n") with
      | ok delivered =>
          refine iff_of_true rfl ?_
          rintro _ ⟨⟩
          exact ⟨delivered, sent⟩
      | error failure =>
          refine iff_of_false (by simp) ?_
          intro can
          obtain ⟨delivered, deliveredEq⟩ := can w rfl
          rw [sent] at deliveredEq
          cases deliveredEq

/-- An action behind a line succeeds if the line can be written. -/
theorem seen_announce_bind_eq_ok_iff {α : Type} {writer : Option Writer} {line : String}
    {next : Action α} (looks : next.LooksOnly) {disk : Disk} {a : α} :
    (announce writer line >>= fun _ => next).seen disk = .ok a ↔
      CanAnnounce writer line ∧ next.seen disk = .ok a := by
  rw [(looksOnly_announce writer line).seen_bind_eq_ok_iff fun _ => looks, ← seen_announce_eq_ok_iff]
  constructor
  · rintro ⟨_, announced, seen⟩
    exact ⟨announced, seen⟩
  · rintro ⟨announced, seen⟩
    exact ⟨(), announced, seen⟩

theorem wrote_of_perform {w : Writer} {text : String} {before after : RunState}
    (wrote : (w.write text).perform before = (.ok (), after)) :
    w.Wrote text before.console after.console := by
  rw [perform_write] at wrote
  cases sent : w.delivery text with
  | ok delivered =>
      rw [sent] at wrote
      cases wrote
      exact ⟨_, _, before.console, sent, .refl _, .refl _⟩
  | error failure =>
      rw [sent] at wrote
      cases wrote

end Writer

end StringAudit
