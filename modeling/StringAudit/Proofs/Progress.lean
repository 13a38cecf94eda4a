import StringAudit.Proofs.Delivery

/-!
# Lines on the progress

A run tells its progress in lines of ASCII, which every character set has.  Such lines are therefore
sent as they are, one after the other, to the stream of their writer.  A line that cannot be written,
not even as a diagnostic, ends the action with a failure that is not reported.
-/

namespace StringAudit

/-- A failure that a run does not report: a breakdown, or a text that could not be reported. -/
def Failure.Unreported : Failure → Prop
  | .breakdown _ | .unreportable _ => True
  | _ => False

/-- One console comes from another by sending lines to an outlet, each in a character set that has it.
-/
inductive Console.Tells (charset : String) (outlet : Outlet) : List String → Console → Console → Prop
  | nil (console : Console) : Tells charset outlet [] console console
  | cons {line : String} {bytes : List UInt8} {lines : List String} {earlier later : Console}
      (encoded : Charset.encodeNamed charset (line ++ "\n") = .ok bytes)
      (others : Tells charset outlet lines (earlier.send outlet bytes) later) :
      Tells charset outlet (line :: lines) earlier later

/-- One console comes from another by sending one line to standard error, or its diagnostic if the
character set lacks it. -/
def Console.Reports (charset : String) (line : WideText) (earlier later : Console) : Prop :=
  ∃ bytes, later = earlier.send .err bytes ∧
    (Codecs.encode charset (line ++ "\n") = .ok bytes ∨
      (∃ fault, Codecs.encode charset (line ++ "\n") = .error fault) ∧
        Charset.encodeNamed charset ((Writer.err charset).diagnostic (line ++ "\n")) = .ok bytes)

namespace Writer

theorem unreported_of_delivery {w : Writer} {text : String} {failure : Failure}
    (undelivered : w.delivery text = .error failure) : failure.Unreported := by
  rw [delivery_eq] at undelivered
  split at undelivered
  · cases undelivered
  · cases undelivered
    trivial
  · split at undelivered
    · cases undelivered
    · cases undelivered
      trivial
    · cases undelivered
      trivial

/-- Announcing fails only by a line that its writer cannot deliver. -/
theorem undelivered_of_announce {writer : Option Writer} {line : String} {failure : Failure}
    {before after : RunState}
    (failed : (announce writer line).perform before = (.error failure, after)) :
    ∃ w text, writer = some w ∧ w.delivery text = .error failure := by
  cases writer with
  | none => cases failed
  | some w =>
      rw [announce, writeLine, perform_write] at failed
      split at failed
      · cases failed
      · rename_i undelivered
        cases failed
        exact ⟨w, _, rfl, undelivered⟩

/-- Writing a line to standard error reports it. -/
theorem reports_of_putLine {charset : String} {line : WideText} {before after : RunState}
    (wrote : ((err charset).putLine line).perform before = (.ok (), after)) :
    after.disk = before.disk ∧ before.console.Reports charset line after.console := by
  rw [putLine, perform_put] at wrote
  split at wrote
  · rename_i outlet bytes delivered
    cases wrote
    refine ⟨rfl, bytes, ?_⟩
    rw [sending] at delivered
    split at delivered
    · rename_i encoded
      cases delivered
      exact ⟨rfl, Or.inl encoded⟩
    · cases delivered
    · rename_i fault _ lacking
      split at delivered
      · rename_i encoded
        cases delivered
        exact ⟨rfl, Or.inr ⟨⟨fault, lacking⟩, encoded⟩⟩
      · cases delivered
      · cases delivered
  · cases wrote

/-- A line of ASCII is sent as it is. -/
theorem perform_announce_of_ascii {charset line : String} {c : Charset} (outlet alarm : Outlet)
    (means : Charset.meaning charset = .charset c) (ascii : Charset.Ascii line.toList)
    (state : RunState) :
    ∃ bytes, Charset.encodeNamed charset (line ++ "\n") = .ok bytes ∧
      (announce (some ⟨charset, outlet, alarm⟩) line).perform state =
        (.ok (), { state with console := state.console.send outlet bytes }) := by
  have whole : Charset.Ascii (line ++ "\n").toList := ascii.append (by decide +kernel)
  obtain ⟨bytes, encoded, delivered⟩ := delivery_of_ascii (w := ⟨charset, outlet, alarm⟩) means whole
  exact ⟨bytes, encoded, by rw [announce, writeLine, perform_write, delivered]⟩

/-- Lines of ASCII are told to the stream of their writer, if there is one. -/
theorem tells_of_announce {charset : String} {c : Charset} {outlet alarm : Outlet} (quiet : Bool)
    (means : Charset.meaning charset = .charset c) {lines : List String}
    (ascii : ∀ line ∈ lines, Charset.Ascii line.toList) {before after : RunState}
    (announced : (lines.forM (announce (if quiet then none else some ⟨charset, outlet, alarm⟩))).perform
      before = (.ok (), after)) :
    after.disk = before.disk ∧
      Console.Tells charset outlet (if quiet then [] else lines) before.console after.console := by
  induction lines generalizing before with
  | nil =>
      cases announced
      exact ⟨rfl, by cases quiet <;> exact .nil _⟩
  | cons line rest ih =>
      obtain ⟨first, others⟩ := List.forall_mem_cons.mp ascii
      obtain ⟨_, between, firstEq, announced⟩ := Action.perform_bind_eq_ok_iff.mp announced
      obtain ⟨sameDisk, tells⟩ := ih others announced
      cases quiet with
      | true =>
          cases firstEq
          exact ⟨sameDisk, tells⟩
      | false =>
          obtain ⟨bytes, encoded, performed⟩ := perform_announce_of_ascii outlet alarm means first before
          have ended := firstEq.symm.trans performed
          rw [Prod.mk.injEq] at ended
          obtain ⟨-, rfl⟩ := ended
          exact ⟨sameDisk, .cons encoded tells⟩

end Writer

end StringAudit
