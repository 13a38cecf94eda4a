import StringAudit.Proofs.Charset.Codecs
import StringAudit.Proofs.Charset.Reading
import StringAudit.Proofs.Findings
import StringAudit.Proofs.Wide
import StringAudit.Proofs.Writer
import StringAudit.Report.Plain

/-!
# What the plain report tells

The plain report is laid out in blocks: the line of a path, an indented line for each of its identifiers, and
an empty line.  An indented line is never empty, so the first empty line behind a path ends its block,
whatever the path is, and the blocks can be read off the lines.  In UTF-8 the lines can be read off the
bytes, unless one of them holds a newline itself, or is torn: of a torn line nothing is written.  So the
bytes of a report of sound lines tell what was found, and no report tells anything else: the orders in which
paths and identifiers were recorded leave no trace.
-/

namespace StringAudit

namespace Charset.Utf8

/-- The bytes of lines, each with a newline behind it. -/
def encodeLines (lines : List String) : List UInt8 :=
  lines.flatMap fun line => encode (line.toList ++ ['\n'])

theorem encodeLines_eq (lines : List String) :
    encodeLines lines = encode ((lines.map String.toList).flatMap (· ++ ['\n'])) := by
  rw [encodeLines, encode, List.flatMap_map, List.flatMap_assoc]
  rfl

/-- The bytes of lines without newlines tell the lines. -/
theorem eq_of_encodeLines_eq {lines others : List String} (clean : ∀ line ∈ lines, '\n' ∉ line.toList)
    (othersClean : ∀ line ∈ others, '\n' ∉ line.toList) (same : encodeLines lines = encodeLines others) :
    lines = others := by
  rw [encodeLines_eq, encodeLines_eq] at same
  have cut := congrArg Text.lines (encode_injective same)
  rw [Text.lines_flatMap_newline (List.forall_mem_map.mpr clean),
    Text.lines_flatMap_newline (List.forall_mem_map.mpr othersClean)] at cut
  exact List.map_injective_iff.mpr (fun _ _ => String.toList_injective) (List.append_cancel_right cut)

end Charset.Utf8

namespace Writer

variable {w : Writer}

/-- In UTF-8 every sound line can be written. -/
theorem sends_putLine [Codecs] (utf8 : Codecs.StandsFor w.charset (.utf8 false)) (line : String) :
    (w.putLine line).Sends w.outlet (Charset.Utf8.encode (line.toList ++ ['\n'])) := by
  have encoded : Codecs.encode w.charset (line ++ "\n" : String) =
      .ok (Charset.Utf8.encode (line.toList ++ ['\n'])) := by
    rw [utf8.encode_eq, String.toList_append]
    rfl
  exact perform_put_of_encode encoded

end Writer

namespace Report

/-! ## The layout -/

/-- The lines of a block: its first line, its other lines, indented, and an empty line. -/
def blockLines (block : String × List String) : List String :=
  block.1 :: block.2.map ("  " ++ ·) ++ [""]

/-- The lines of a report with the given blocks. -/
def layout : List (String × List String) → List String
  | [] => ["No abandoned resource strings were detected."]
  | block :: rest =>
      "Abandoned resource strings were detected:" :: (block :: rest).flatMap blockLines

/-- No indented line is empty. -/
theorem empty_notMem_indented (names : List String) : "" ∉ names.map ("  " ++ ·) := by
  intro mem
  obtain ⟨name, -, empty⟩ := List.mem_map.mp mem
  exact absurd (String.append_eq_empty_iff.mp empty).1 (by decide)

theorem blockLines_append (block : String × List String) (rest : List String) :
    blockLines block ++ rest = block.1 :: (block.2.map ("  " ++ ·) ++ "" :: rest) := by
  rw [blockLines, List.cons_append, List.cons_append, List.append_assoc, List.singleton_append]

/-- A block ends at the first empty line behind its first line. -/
theorem blockLines_append_inj {block another : String × List String} {rest others : List String}
    (same : blockLines block ++ rest = blockLines another ++ others) :
    block = another ∧ rest = others := by
  rw [blockLines_append, blockLines_append, List.cons.injEq] at same
  obtain ⟨first, behind⟩ := same
  have cut := congrArg (List.splitOn "") behind
  rw [List.splitOn_append_cons_self_of_not_mem (empty_notMem_indented _),
    List.splitOn_append_cons_self_of_not_mem (empty_notMem_indented _), List.cons.injEq] at cut
  obtain ⟨indented, -⟩ := cut
  rw [indented] at behind
  have names := List.map_injective_iff.mpr (fun _ _ => (String.append_right_inj "  ").mp) indented
  exact ⟨Prod.ext first names, (List.cons.inj (List.append_cancel_left behind)).2⟩

theorem eq_of_flatMap_blockLines_eq {blocks others : List (String × List String)}
    (same : blocks.flatMap blockLines = others.flatMap blockLines) : blocks = others := by
  induction blocks generalizing others with
  | nil =>
      cases others with
      | nil => rfl
      | cons another rest => cases same
  | cons block rest ih =>
      cases others with
      | nil => cases same
      | cons another others =>
          obtain ⟨rfl, behind⟩ := blockLines_append_inj same
          rw [ih behind]

/-- The blocks can be read off the lines of a report. -/
theorem layout_injective : Function.Injective layout := by
  intro blocks others same
  cases blocks with
  | nil =>
      cases others with
      | nil => rfl
      | cons another others => exact absurd (List.cons.inj same).1 (by decide)
  | cons block rest =>
      cases others with
      | nil => exact absurd (List.cons.inj same).1 (by decide)
      | cons another others => exact eq_of_flatMap_blockLines_eq (List.cons.inj same).2

theorem layout_ne_nil (blocks : List (String × List String)) : layout blocks ≠ [] := by
  cases blocks <;> exact List.cons_ne_nil _ _

theorem newline_notMem_of_mem_blockLines {path : String} {names : List String}
    (pathClean : '\n' ∉ path.toList) (namesClean : ∀ name ∈ names, '\n' ∉ name.toList) {line : String}
    (mem : line ∈ blockLines (path, names)) : '\n' ∉ line.toList := by
  rcases List.mem_append.mp mem with front | last
  · rcases List.mem_cons.mp front with rfl | indented
    · exact pathClean
    · obtain ⟨name, nameMem, rfl⟩ := List.mem_map.mp indented
      rw [String.toList_append, List.mem_append, not_or]
      exact ⟨by decide +kernel, namesClean name nameMem⟩
  · obtain rfl := List.mem_singleton.mp last
    exact List.not_mem_nil

/-! ## Listings -/

namespace Listing

/-- Listings of different paths. -/
def Distinct (listing : Listing) : Prop :=
  Entries.Distinct listing.entries

/-- Listings that say the same: they have the same paths, and for each of them they list the same texts
equally often. -/
def Alike (listing other : Listing) : Prop :=
  Entries.Alike listing.entries other.entries

/-- Listings in which no path and no text holds a newline. -/
def Unbroken (listing : Listing) : Prop :=
  ∀ entry ∈ listing.entries, .char '\n' ∉ entry.1.points ∧ ∀ name ∈ entry.2, .char '\n' ∉ name.points

/-- Listings in which no path and no text is torn. -/
def Sound (listing : Listing) : Prop :=
  ∀ entry ∈ listing.entries, entry.1.sound?.isSome ∧ ∀ name ∈ entry.2, name.sound?.isSome

instance (listing : Listing) : Decidable listing.Distinct :=
  inferInstanceAs (Decidable (List.Nodup _))

instance (listing : Listing) : Decidable listing.Unbroken :=
  inferInstanceAs (Decidable (∀ entry ∈ listing.entries, _ ∧ _))

instance (listing : Listing) : Decidable listing.Sound :=
  inferInstanceAs (Decidable (∀ entry ∈ listing.entries, _ ∧ _))

/-- The lines of a block that is in order. -/
def blockLines (block : WideText × List WideText) : List WideText :=
  block.1 :: block.2.map (WideText.sound "  " ++ ·) ++ [.sound ""]

/-- The lines of a report are those of its blocks in order. -/
theorem lines_eq (listing : Listing) :
    listing.lines =
      if (Entries.canonical listing.entries).isEmpty then
        [.sound "No abandoned resource strings were detected."]
      else
        .sound "Abandoned resource strings were detected:" ::
          (Entries.canonical listing.entries).flatMap blockLines := by
  have empty : (Entries.canonical listing.entries).isEmpty = listing.entries.isEmpty := by
    rw [Bool.eq_iff_iff, List.isEmpty_iff, List.isEmpty_iff, Entries.canonical_eq_nil_iff]
  rw [lines, empty, Entries.canonical, List.flatMap_map]
  rfl

/-- The blocks of findings are their blocks of texts. -/
theorem canonical_of (findings : Findings) :
    Entries.canonical (Listing.of findings).entries =
      findings.canonical.map (Prod.map WideText.sound (List.map WideText.sound)) :=
  Entries.canonical_map (fun _ _ => WideText.sound_le_sound_iff) findings.entries

/-- The lines about findings are laid out in blocks, one for each path. -/
theorem lines_of (findings : Findings) :
    (Listing.of findings).lines = (layout findings.canonical).map .sound := by
  rw [lines_eq, canonical_of]
  cases findings.canonical with
  | nil => rfl
  | cons block rest =>
      have blocks : ∀ block : String × List String,
          blockLines (Prod.map .sound (List.map .sound) block) = (Report.blockLines block).map .sound := by
        intro block
        rw [blockLines, Report.blockLines, List.map_append, List.map_cons, Prod.map_snd, List.map_map,
          List.map_map]
        rfl
      change _ :: (List.map _ (block :: rest)).flatMap blockLines =
        _ :: ((block :: rest).flatMap Report.blockLines).map .sound
      rw [List.flatMap_map, List.map_flatMap]
      simp only [blocks]

/-- What is sound is what findings list. -/
theorem Sound.exists_of {listing : Listing} (sound : listing.Sound) :
    ∃ findings : Findings, Listing.of findings = listing := by
  refine ⟨⟨listing.entries.map (Prod.map WideText.plain (List.map WideText.plain))⟩, ?_⟩
  have plain : ∀ text : WideText, text.sound?.isSome → WideText.sound text.plain = text := by
    intro text isSound
    cases text with
    | sound s => rfl
    | torn t => cases isSound
  have same : ∀ entry ∈ listing.entries,
      (WideText.sound entry.1.plain, (entry.2.map WideText.plain).map WideText.sound) = entry := by
    intro entry mem
    obtain ⟨path, names⟩ := sound entry mem
    refine Prod.ext (plain entry.1 path) ?_
    rw [List.map_map]
    exact (List.map_congr_left fun name nameMem => plain name (names name nameMem)).trans (List.map_id _)
  refine congrArg Listing.mk ?_
  rw [List.map_map]
  exact (List.map_congr_left same).trans (List.map_id _)

end Listing

variable {findings : Findings} {listing other : Listing} {w : Writer}

/-- Displaying findings is writing the lines of their blocks. -/
theorem display_eq [Codecs] (w : Writer) (findings : Findings) :
    display w findings = (layout findings.canonical).forM w.writeLine := by
  rw [display, Listing.lines_of]
  exact List.forM_map

/-- Listings with the same blocks are displayed in the same way. -/
theorem display_congr [Codecs] (w : Writer)
    (same : Entries.canonical listing.entries = Entries.canonical other.entries) :
    display w listing = display w other := by
  rw [display, Listing.lines_eq, same, ← Listing.lines_eq, display]

/-- If no path and no identifier holds a newline, no line of the report does. -/
theorem newline_notMem_of_mem_layout (unbroken : (Listing.of findings).Unbroken) {line : String}
    (mem : line ∈ layout findings.canonical) : '\n' ∉ line.toList := by
  have clean : ∀ {text : String}, .char '\n' ∉ (WideText.sound text).points → '\n' ∉ text.toList :=
    fun notMem mem => notMem (List.mem_map_of_mem mem)
  have blocks : ∀ block ∈ findings.canonical, ∀ line ∈ blockLines block, '\n' ∉ line.toList := by
    intro block blockMem
    obtain ⟨entry, entryMem, rfl⟩ := List.mem_map.mp blockMem
    obtain ⟨path, names⟩ :=
      unbroken _ (List.mem_map_of_mem (findings.perm_byPath.mem_iff.mp entryMem))
    refine fun _ => newline_notMem_of_mem_blockLines (clean path) fun name nameMem => ?_
    have listed := (Entries.perm_sorted entry.2).mem_iff.mp nameMem
    exact clean (names _ (List.mem_map_of_mem listed))
  revert mem blocks
  cases findings.canonical with
  | nil =>
      intro mem _
      obtain rfl := List.mem_singleton.mp mem
      decide +kernel
  | cons block rest =>
      intro mem blocks
      rcases List.mem_cons.mp mem with rfl | inside
      · decide +kernel
      · obtain ⟨another, anotherMem, lineMem⟩ := List.mem_flatMap.mp inside
        exact blocks another anotherMem line lineMem

/-- The lines about findings are sent in UTF-8. -/
theorem sends_display [Codecs] (utf8 : Codecs.StandsFor w.charset (.utf8 false)) (findings : Findings) :
    (display w findings).Sends w.outlet (Charset.Utf8.encodeLines (layout findings.canonical)) := by
  rw [display_eq]
  exact .forM (layout_ne_nil _) fun line _ => Writer.sends_putLine utf8 line

/-- Listings that say the same are displayed in the same way, in whatever order they list it.  In UTF-8 a
listing of sound texts is displayed by sending bytes, and if none of these texts holds a newline, only
listings that say the same are displayed by the same bytes. -/
theorem display_determines [Codecs] (utf8 : Codecs.StandsFor w.charset (.utf8 false))
    (distinct : listing.Distinct) (otherDistinct : other.Distinct) :
    (listing.Alike other → display w listing = display w other) ∧
      (listing.Sound → other.Sound → listing.Unbroken → other.Unbroken →
        (∃ bytes, (display w listing).Sends w.outlet bytes) ∧
          ∀ bytes, (display w listing).Sends w.outlet bytes → (display w other).Sends w.outlet bytes →
            listing.Alike other) := by
  have blocks := Entries.Distinct.canonical_eq_iff distinct otherDistinct
  refine ⟨fun alike => display_congr w (blocks.mpr alike), fun sound otherSound unbroken otherUnbroken => ?_⟩
  obtain ⟨findings, rfl⟩ := sound.exists_of
  obtain ⟨others, rfl⟩ := otherSound.exists_of
  refine ⟨⟨_, sends_display utf8 findings⟩, fun bytes displayed otherDisplayed => blocks.mp ?_⟩
  have same := (sends_display utf8 findings).bytes_eq displayed
  have otherSame := (sends_display utf8 others).bytes_eq otherDisplayed
  have lines : layout findings.canonical = layout others.canonical :=
    Charset.Utf8.eq_of_encodeLines_eq (fun _ => newline_notMem_of_mem_layout unbroken)
      (fun _ => newline_notMem_of_mem_layout otherUnbroken) (same.trans otherSame.symm)
  rw [Listing.canonical_of, Listing.canonical_of, layout_injective lines]

/-- A file without a name, with an identifier that reads like the first line of the report and one with blanks
in front, and a file with an identifier that was found twice. -/
def deceptive : Findings :=
  ⟨[("b.strings", ["y", "x", "y"]), ("", ["  y", "Abandoned resource strings were detected:"])]⟩

/-- The same in order. -/
def deceptiveInOrder : Findings :=
  ⟨[("", ["  y", "Abandoned resource strings were detected:"]), ("b.strings", ["x", "y", "y"])]⟩

/-- The same with the identifier that was found twice found only once. -/
def deceptiveOnce : Findings :=
  ⟨[("", ["  y", "Abandoned resource strings were detected:"]), ("b.strings", ["x", "y"])]⟩

theorem deceptive_rearranges : deceptive.Rearranges deceptiveInOrder :=
  ⟨deceptive.entries.reverse, by decide, by decide⟩

theorem canonical_deceptive : deceptive.canonical = deceptiveInOrder.canonical :=
  (Findings.Distinct.canonical_of_rearranges (by decide) deceptive_rearranges).symm

/-- An order that changed leaves no trace, and a repetition that is missing does. -/
theorem display_determines_deceptive :
    let w := Writer.out "utf-8"
    let listing := Listing.of deceptive
    let once := Listing.of deceptiveOnce
    Codecs.StandsFor w.charset (.utf8 false) ∧ listing.Distinct ∧ once.Distinct ∧
      (listing.Sound ∧ once.Sound ∧ listing.Unbroken ∧ once.Unbroken) ∧
      display w listing = display w deceptiveInOrder ∧
      ∃ bytes, (display w listing).Sends .out bytes ∧ ¬ (display w once).Sends .out bytes := by
  intro w listing once
  have utf8 : Codecs.StandsFor w.charset (.utf8 false) := Codecs.standsFor_of_meaning Charset.meaning_utf8
  have distinct : listing.Distinct := by decide
  have inOrderDistinct : (Listing.of deceptiveInOrder).Distinct := by decide
  have onceDistinct : once.Distinct := by decide
  have clean : listing.Sound ∧ once.Sound ∧ listing.Unbroken ∧ once.Unbroken := by decide +kernel
  have alike : listing.Alike deceptiveInOrder := by
    refine (Entries.Distinct.canonical_eq_iff distinct inOrderDistinct).mp ?_
    rw [Listing.canonical_of, Listing.canonical_of, canonical_deceptive]
  have apart : ¬ listing.Alike once := by
    intro alike
    have perm := alike.items (.sound "b.strings") [.sound "y", .sound "x", .sound "y"]
      [.sound "x", .sound "y"] (by decide) (by decide)
    exact absurd perm (by decide)
  obtain ⟨same, -⟩ := display_determines utf8 distinct inOrderDistinct
  obtain ⟨-, only⟩ := display_determines utf8 distinct onceDistinct
  have ⟨sound, onceSound, unbroken, onceUnbroken⟩ := clean
  obtain ⟨⟨bytes, displayed⟩, alikeOf⟩ := only sound onceSound unbroken onceUnbroken
  exact ⟨utf8, distinct, onceDistinct, clean, same alike, bytes, displayed,
    fun onceDisplayed => apart (alikeOf bytes displayed onceDisplayed)⟩

/-- A file with a byte in its name that is no UTF-8. -/
def tornFile (n : Fin 0x800) : Listing :=
  ⟨[(.torn ⟨"", n, WideText.pointsOf ".strings"⟩, [.sound "gone"])]⟩

/-- A torn path leaves no bytes on a stream in UTF-8, and two of them cannot be told apart there. -/
theorem display_same_of_torn :
    let w := Writer.out "utf-8"
    let before : RunState := { disk := { root := .empty, here := [] } }
    let first := (display w (tornFile 0x480)).perform before
    let second := (display w (tornFile 0x481)).perform before
    ((tornFile 0x480).Distinct ∧ (tornFile 0x481).Distinct) ∧
      ((tornFile 0x480).Unbroken ∧ (tornFile 0x481).Unbroken) ∧
      (first.1 = .ok () ∧ second.1 = .ok ()) ∧
      first.2.console.written .out = second.2.console.written .out ∧
      ¬ (tornFile 0x480).Alike (tornFile 0x481) := by
  intro w before first second
  refine ⟨by decide +kernel, by decide +kernel, by decide +kernel, by decide +kernel, fun alike => ?_⟩
  have mem := (alike.keys (.torn ⟨"", 0x480, WideText.pointsOf ".strings"⟩)).mp List.mem_cons_self
  exact absurd mem (by decide)

end Report

end StringAudit
