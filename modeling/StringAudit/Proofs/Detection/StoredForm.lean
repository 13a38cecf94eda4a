import StringAudit.Proofs.Detection
import StringAudit.Proofs.Disk.Alike

/-!
# Detection and the form of texts

Detection reads files only through their texts.  On disks that differ only in the form in which files
store their texts it therefore ends alike, with the same findings or the same failure, and writes the
same.
-/

namespace StringAudit

namespace Action

variable {α β : Type} {disk disk' : Disk}

/-- An action that looks only does the same on two disks: it ends alike, and writes the same. -/
def SameOn (disk disk' : Disk) (action : Action α) : Prop :=
  ∀ console, action.perform ⟨disk', console⟩ =
    ((action.perform ⟨disk, console⟩).1, { (action.perform ⟨disk, console⟩).2 with disk := disk' })

theorem SameOn.pure (a : α) : SameOn disk disk' (Pure.pure a : Action α) :=
  fun _ => rfl

theorem SameOn.throw (failure : Failure) :
    SameOn disk disk' (MonadExcept.throw failure : Action α) :=
  fun _ => rfl

theorem SameOn.ask {look : Disk → Except Failure α} (same : look disk' = look disk) :
    (Action.ask look).SameOn disk disk' := by
  intro console
  rw [perform_ask, perform_ask, same]

theorem SameOn.bind {action : Action α} {next : α → Action β} (looks : action.LooksOnly)
    (same : action.SameOn disk disk') (onward : ∀ a, (next a).SameOn disk disk') :
    (action >>= next).SameOn disk disk' := by
  intro console
  have kept := looks.disk_eq ⟨disk, console⟩
  rw [perform_bind, perform_bind, same console]
  rcases performed : action.perform ⟨disk, console⟩ with ⟨failure | a, ⟨left, written⟩⟩
  · rfl
  · rw [performed] at kept
    obtain rfl : left = disk := kept
    exact onward a written

theorem SameOn.foldlM {step : β → α → Action β} (looks : ∀ b item, (step b item).LooksOnly)
    (same : ∀ b item, (step b item).SameOn disk disk') (items : List α) (b : β) :
    (items.foldlM step b).SameOn disk disk' := by
  induction items generalizing b with
  | nil => exact .pure b
  | cons item rest ih =>
      rw [List.foldlM_cons]
      exact .bind (looks b item) (same b item) ih

end Action

namespace Writer

theorem sameOn_announce (disk disk' : Disk) (writer : Option Writer) (line : String) :
    (announce writer line).SameOn disk disk' := by
  cases writer with
  | none => exact .pure ()
  | some w =>
      intro console
      rw [announce, writeLine, perform_write, perform_write]
      cases w.delivery (line ++ "\n") <;> rfl

end Writer

namespace Audit

variable {disk disk' : Disk}

theorem joinedTexts_alike (alike : disk.Alike disk') (paths : List String) :
    joinedTexts disk' paths = joinedTexts disk paths := by
  induction paths with
  | nil => rfl
  | cons path rest ih => rw [joinedTexts, joinedTexts, TextFile.read_alike alike, ih]

theorem corpus_alike (alike : disk.Alike disk') (audit : Audit) (roots : List String)
    (storyboards : Bool) : audit.corpus roots storyboards disk' = audit.corpus roots storyboards disk := by
  simp only [corpus, sources, Collection.collect_alike alike, joinedTexts_alike alike]

theorem scanFile_alike (alike : disk.Alike disk') (audit : Audit) (corpus path : String) :
    audit.scanFile corpus path disk' = audit.scanFile corpus path disk := by
  rw [scanFile, scanFile, TextFile.read_alike alike]

theorem scanFiles_alike (alike : disk.Alike disk') (audit : Audit) (corpus : String)
    (paths : List String) : audit.scanFiles corpus disk' paths = audit.scanFiles corpus disk paths := by
  induction paths with
  | nil => rfl
  | cons path rest ih => rw [scanFiles, scanFiles, scanFile_alike alike, ih]

theorem sameOn_take (audit : Audit) (findings : Findings) (scanned : String × List String) :
    (audit.take findings scanned).SameOn disk disk' := by
  rw [take]
  split
  · exact .bind (Writer.looksOnly_announce _ _) (Writer.sameOn_announce disk disk' _ _) fun _ => .pure _
  · exact .pure _

theorem sameOn_scanAll (alike : disk.Alike disk') (audit : Audit) (corpus : String)
    (paths : List String) : (audit.scanAll corpus paths).SameOn disk disk' := by
  rw [scanAll]
  split
  · exact .pure _
  split
  · exact .throw _
  · refine .bind (.ask _) (.ask (scanFiles_alike alike audit corpus paths)) fun scanned => ?_
    exact .foldlM (fun findings item => looksOnly_take findings item) audit.sameOn_take scanned {}

/-- Detection does the same on disks that are alike. -/
theorem sameOn_detect (alike : disk.Alike disk') (audit : Audit) (roots : List String)
    (storyboards : Bool) : (audit.detect roots storyboards).SameOn disk disk' := by
  have resources : audit.resources roots disk' = audit.resources roots disk :=
    Collection.collect_alike alike _ roots
  have announced := Writer.sameOn_announce disk disk' audit.progress
  rw [detect]
  refine .bind (Writer.looksOnly_announce _ _) (announced _) fun _ => ?_
  refine .bind (.ask _) (.ask (corpus_alike alike audit roots storyboards)) fun corpus => ?_
  refine .bind (.ask _) (.ask resources) fun paths => ?_
  exact .bind (Writer.looksOnly_announce _ _) (announced _) fun _ => sameOn_scanAll alike audit corpus paths

/-- A file is read as the text that it stores, whatever the form; only a text in UTF-8 without a mark
loses its first character if that is U+FEFF.  On disks that differ in the form in which files store
their texts, none of which starts with this character, a detection ends alike and writes the same. -/
theorem detect_of_forms (alike : disk.Alike disk') (audit : Audit) (roots : List String)
    (storyboards : Bool) (console : Console) :
    (∀ (there : Disk) (path : String) (text : List Char) (form : TextFile.Form),
      Disk.isUsable path = true → Disk.isAmong there.refusals.reading path = false →
      there.readBytes (Path.tidy path) = .ok (form.bytes text) →
      TextFile.read path there = .ok (String.ofList
        (if form = .plain ∧ text.head? = some TextFile.mark then text.tail else text))) ∧
    (audit.detect roots storyboards).perform ⟨disk', console⟩ =
      (((audit.detect roots storyboards).perform ⟨disk, console⟩).1,
        { ((audit.detect roots storyboards).perform ⟨disk, console⟩).2 with disk := disk' }) := by
  refine ⟨?_, sameOn_detect alike audit roots storyboards console⟩
  intro there path text form usable permitted holds
  simp only [TextFile.read, usable, permitted, holds, form.decode_bytes, Bool.not_true,
    Bool.false_eq_true, if_false]
  cases form <;> simp [TextFile.Form.shows]

/-- A source file and a resource file with characters of one to four bytes, in two forms. -/
def formsDisk (source resource : TextFile.Form) : Disk where
  root := .folder "app"
    (.file "main.m" ⟨source.bytes "use(@\"k\u00E9pt\u65E5\");".toList, 0o644⟩
      (.file "ui.strings" ⟨resource.bytes "\"gone😀\" = \"1\";\n\"k\u00E9pt\u65E5\" = \"2\";".toList,
        0o644⟩ .empty))
    .empty
  here := []

theorem alike_formsDisk (source source' resource resource' : TextFile.Form) :
    (formsDisk source resource).Alike (formsDisk source' resource') := by
  have same : ∀ (form form' : TextFile.Form) {text : List Char}, text.head? ≠ some TextFile.mark →
      TextFile.SameText (form.bytes text) (form'.bytes text) :=
    fun form form' _ unmarked => Or.inr ⟨_, form, form', unmarked, rfl, rfl⟩
  refine ⟨.folder (.file (same source source' ?_) (.file (same resource resource' ?_) .empty)) .empty,
    rfl, rfl⟩
  · decide
  · decide

/-- The same is found whether both files are in UTF-8 or in UTF-16 of different byte orders, and the
resource file is read as the same text. -/
theorem detect_of_forms_formsDisk :
    (({} : Audit).detect ["app"] false).perform
        { disk := formsDisk (.wide .littleEndian) (.wide .bigEndian) } =
      (.ok ⟨[("app/ui.strings", ["gone😀"])]⟩,
        { disk := formsDisk (.wide .littleEndian) (.wide .bigEndian) }) ∧
    TextFile.read "app/ui.strings" (formsDisk (.wide .littleEndian) (.wide .bigEndian)) =
      .ok "\"gone😀\" = \"1\";\n\"k\u00E9pt\u65E5\" = \"2\";" := by
  have plain : (({} : Audit).detect ["app"] false).perform { disk := formsDisk .plain .signed } =
      (.ok ⟨[("app/ui.strings", ["gone😀"])]⟩, { disk := formsDisk .plain .signed }) := by
    decide +kernel
  obtain ⟨reads, same⟩ := detect_of_forms
    (alike_formsDisk .plain (.wide .littleEndian) .signed (.wide .bigEndian)) {} ["app"] false {}
  rw [plain] at same
  refine ⟨same, ?_⟩
  exact reads _ _ "\"gone😀\" = \"1\";\n\"k\u00E9pt\u65E5\" = \"2\";".toList (.wide .bigEndian)
    (by decide +kernel) (by decide +kernel) (by decide +kernel)

end Audit

end StringAudit
