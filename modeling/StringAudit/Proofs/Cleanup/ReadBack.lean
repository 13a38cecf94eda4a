import StringAudit.Proofs.Charset.ReadBack
import StringAudit.Proofs.Cleanup.Remains
import StringAudit.Proofs.Settings

/-!
# Reading a cleaned file again

A cleaned file holds what is left of its text in the character set of the settings.  Reading the file
takes no notice of the settings, so whether it gives that text again depends on the bytes alone.
-/

namespace StringAudit.Cleanup

section Cleans

variable [Codecs] {charset path : String} {unwanted : List String} {before after : Disk} {place : Place}
  {name text : String} {contents : File}

/-- A cleaned path leads to the new file, which can be read as the old one could. -/
theorem Cleans.reads_spot (cleans : Cleans charset path unwanted before after place name text contents) :
    ∃ links, after.Reads path links (place ++ [name]) contents := by
  obtain ⟨links, goal, old, reads, -⟩ := TextFile.read_eq_ok_iff.mp cleans.read_eq
  obtain ⟨_, leads⟩ := cleans.leads_spot
  rcases reads.after cleans.refiles with ⟨elsewhere, same⟩ | ⟨spot, mem, fewer, new, readsNew, -⟩
  · obtain ⟨-, rfl⟩ := same.leads.deterministic leads
    exact absurd (List.mem_singleton_self _) elsewhere
  · obtain rfl := List.mem_singleton.mp mem
    have found := readsNew.found.symm.trans cleans.overwrites.look_spot
    rw [Option.some.injEq, Leaf.file.injEq] at found
    exact ⟨fewer, found ▸ readsNew⟩

/-- What is read from a cleaned path is what the bytes of the new file say. -/
theorem Cleans.read_after_iff
    (cleans : Cleans charset path unwanted before after place name text contents) {again : String} :
    TextFile.read path after = .ok again ↔ TextFile.decode contents.bytes = .ok again.toList := by
  obtain ⟨links, reads⟩ := cleans.reads_spot
  constructor
  · intro readEq
    obtain ⟨_, goal, new, readsNew, decoded⟩ := TextFile.read_eq_ok_iff.mp readEq
    obtain ⟨-, rfl⟩ := readsNew.leads.deterministic reads.leads
    have found := readsNew.found.symm.trans reads.found
    rw [Option.some.injEq, Leaf.file.injEq] at found
    exact found ▸ decoded
  · intro decoded
    exact TextFile.read_eq_ok_iff.mpr ⟨links, _, contents, reads, decoded⟩

end Cleans

section apply

variable [Codecs] {cleanup : Cleanup} {path : String} {unwanted : List String} {before after : RunState}
  {result : Result}

/-- A path that is reported as cleaned was cleaned, if there was nothing else to clean. -/
theorem cleans_of_apply
    (applied : (cleanup.apply ⟨[(path, unwanted)]⟩).perform before = (.ok result, after))
    (written : path ∈ result.written) :
    ∃ place name text contents,
      Cleans cleanup.charset path unwanted before.disk after.disk place name text contents := by
  have only : (⟨[(path, unwanted)]⟩ : Findings).byPath = [(path, unwanted)] :=
    List.mergeSort_singleton _
  rw [apply, only, List.foldlM_cons] at applied
  obtain ⟨next, later, cleaned, ended⟩ := Action.perform_bind_eq_ok_iff.mp applied
  rw [List.foldlM_nil, Action.perform_pure, Prod.mk.injEq, Except.ok.injEq] at ended
  obtain ⟨rfl, rfl⟩ := ended
  obtain ⟨-, -, ⟨-, -, message, rfl⟩ | ⟨-, cleans⟩⟩ := perform_cleanOne_cases cleaned
  · exact absurd written List.not_mem_nil
  · exact cleans

/-- With any library, and under any of its names, a file that is reported as cleaned holds what is left of its
text as the library writes it.  Reading the file gives that text again exactly if those bytes spell it; under a
name that stands for one of the character sets here, `ReadsBack` says when they do. -/
theorem read_of_apply
    (applied : (cleanup.apply ⟨[(path, unwanted)]⟩).perform before = (.ok result, after))
    (written : path ∈ result.written) :
    ∃ old bytes, TextFile.read path before.disk = .ok old ∧
      Codecs.encode cleanup.charset (Resource.removing unwanted old) = .ok bytes ∧
      (∀ again : String,
        TextFile.read path after.disk = .ok again ↔ TextFile.decode bytes = .ok again.toList) ∧
      (TextFile.read path after.disk = .ok (Resource.removing unwanted old) ↔
        TextFile.Spells (Resource.removing unwanted old).toList bytes) ∧
      ∀ c : Charset, (∀ text : String, Codecs.encode cleanup.charset text = c.encode text.toList) →
        (TextFile.read path after.disk = .ok (Resource.removing unwanted old) ↔
          TextFile.ReadsBack c (Resource.removing unwanted old).toList) := by
  obtain ⟨place, name, old, contents, cleans⟩ := cleans_of_apply applied written
  refine ⟨old, contents.bytes, cleans.read_eq, cleans.encoded, fun again => cleans.read_after_iff,
    cleans.read_after_iff.trans TextFile.decode_eq_ok_iff, ?_⟩
  intro c stands
  have encoded := (stands _).symm.trans cleans.encoded
  exact cleans.read_after_iff.trans (TextFile.decode_encode_eq_iff encoded)

end apply

/-- A resource file with a letter outside ASCII. -/
def accentedDisk : Disk where
  root := .folder "app"
    (.file "ui.strings"
      ⟨Charset.Utf8.encode "\"gone\" = \"1\";\n\"caf\u00E9\" = \"2\";\n".toList, 0o644⟩ .empty)
    .empty
  here := []

/-- The settings that set nothing but the character set. -/
def settingsIn (charset : String) : Yaml.Value :=
  .mapping [(.text "encoding", .text charset)]

/-- Cleaned in UTF-16, the file of `accentedDisk` gives again what is left of its text. -/
theorem read_of_apply_utf16 :
    ∃ after, ((({ charset := "utf-16" } : Cleanup).apply ⟨[("app/ui.strings", ["gone"])]⟩).perform
        { disk := accentedDisk }) = (.ok ⟨["app/ui.strings"], []⟩, after) ∧
      TextFile.read "app/ui.strings" after.disk = .ok "\"caf\u00E9\" = \"2\";\n" := by
  have means : Charset.meaning "utf-16" = .charset (.utf16 none) := by decide +kernel
  have readEq : TextFile.read "app/ui.strings" accentedDisk =
      .ok "\"gone\" = \"1\";\n\"caf\u00E9\" = \"2\";\n" := by
    decide +kernel
  have left : Resource.removing ["gone"] "\"gone\" = \"1\";\n\"caf\u00E9\" = \"2\";\n" =
      "\"caf\u00E9\" = \"2\";\n" := by
    decide +kernel
  have applied : (({ charset := "utf-16" } : Cleanup).apply ⟨[("app/ui.strings", ["gone"])]⟩).perform
      { disk := accentedDisk } = (.ok ⟨["app/ui.strings"], []⟩, _) :=
    Prod.ext (by decide +kernel) rfl
  obtain ⟨old, _, oldEq, _, _, _, again⟩ := read_of_apply applied (List.mem_singleton_self _)
  obtain rfl := Except.ok.inj (readEq.symm.trans oldEq)
  have readsBack := again (.utf16 none) (TextFile.encodeNamed_eq means)
  rw [left] at readsBack
  exact ⟨_, applied, readsBack.mpr trivial⟩

/-- Cleaned in Latin-1, the file of `accentedDisk` is reported as cleaned and cannot be read. -/
theorem read_of_apply_latin1 :
    Settings.ofValue (settingsIn "latin-1") = .ok { charset := "latin-1" } ∧
      ∃ after, (({ charset := "latin-1" } : Cleanup).apply ⟨[("app/ui.strings", ["gone"])]⟩).perform
          { disk := accentedDisk } = (.ok ⟨["app/ui.strings"], []⟩, after) ∧
        TextFile.read "app/ui.strings" accentedDisk =
          .ok "\"gone\" = \"1\";\n\"caf\u00E9\" = \"2\";\n" ∧
        TextFile.read "app/ui.strings" after.disk ≠
          .ok (Resource.removing ["gone"] "\"gone\" = \"1\";\n\"caf\u00E9\" = \"2\";\n") := by
  refine ⟨by decide +kernel, _, Prod.ext (by decide +kernel) rfl, by decide +kernel, ?_⟩
  decide +kernel

end StringAudit.Cleanup
