import StringAudit.Proofs.Cleanup.ReadBack

/-!
# What cleaning does to the bytes of a file

In UTF-8 the byte of the newline stands for nothing but a newline.  So the bytes of a text, cut at that
byte, are the bytes of its lines, and cleaning a file that is stored in UTF-8 takes some of them away and
leaves the others as they are, byte for byte.
-/

namespace StringAudit

namespace Charset.Utf8

/-- The byte of the newline. -/
def newline : UInt8 :=
  0x0A

theorem newline_eq_iff {n : Nat} (small : n < 0x100) : newline = n.toUInt8 ↔ n = 0x0A := by
  rw [← UInt8.toNat_inj, toNat_toUInt8 small]
  exact eq_comm

/-- All bytes of a character beyond ASCII have their highest bit set, so that none is a newline. -/
theorem newline_mem_encodeChar_iff {c : Char} : newline ∈ encodeChar c ↔ c = '\n' := by
  have ranges := toNat_ranges c
  rw [← Char.toNat_inj, show '\n'.toNat = 0x0A from rfl, encodeChar]
  generalize c.toNat = n at ranges
  split
  · rw [List.mem_singleton, newline_eq_iff (by omega)]
  split
  · simp only [List.mem_cons, List.not_mem_nil, or_false]
    rw [newline_eq_iff (by omega), newline_eq_iff (by omega)]
    omega
  split
  · simp only [List.mem_cons, List.not_mem_nil, or_false]
    rw [newline_eq_iff (by omega), newline_eq_iff (by omega), newline_eq_iff (by omega)]
    omega
  · simp only [List.mem_cons, List.not_mem_nil, or_false]
    rw [newline_eq_iff (by omega), newline_eq_iff (by omega), newline_eq_iff (by omega),
      newline_eq_iff (by omega)]
    omega

theorem newline_mem_encode_iff {text : List Char} : newline ∈ encode text ↔ '\n' ∈ text := by
  simp only [encode, List.mem_flatMap, newline_mem_encodeChar_iff, exists_eq_right]

/-- Lines are put together as their bytes are. -/
theorem encode_unlines (ls : List (List Char)) :
    encode (Text.unlines ls) = [newline].intercalate (ls.map encode) := by
  induction ls with
  | nil => rfl
  | cons line rest ih =>
      by_cases last : rest = []
      · simp [last, Text.unlines]
      · have lastBytes : rest.map encode ≠ [] := List.map_eq_nil_iff.not.mpr last
        rw [Text.unlines, List.intercalate_cons_of_ne_nil last, encode_append, encode_append, List.map_cons,
          List.intercalate_cons_of_ne_nil lastBytes, ← ih]
        rfl

/-- The bytes of a text, cut at the byte of the newline, are those of its lines. -/
theorem splitOn_encode (text : List Char) :
    (encode text).splitOn newline = (Text.lines text).map encode := by
  have clean : ∀ bytes ∈ (Text.lines text).map encode, newline ∉ bytes := by
    rintro _ mem
    obtain ⟨line, lineMem, rfl⟩ := List.mem_map.mp mem
    exact newline_mem_encode_iff.not.mpr (Text.newline_notMem_of_mem_lines lineMem)
  have nonempty : (Text.lines text).map encode ≠ [] :=
    List.map_eq_nil_iff.not.mpr (Text.lines_ne_nil text)
  calc
    (encode text).splitOn newline = (encode (Text.unlines (Text.lines text))).splitOn newline := by
      rw [Text.unlines_lines]
    _ = ([newline].intercalate ((Text.lines text).map encode)).splitOn newline := by rw [encode_unlines]
    _ = (Text.lines text).map encode := List.splitOn_intercalate newline clean nonempty

end Charset.Utf8

namespace TextFile

/-- Bytes in UTF-8 that do not start with its mark are read as what they are. -/
theorem decode_of_unsigned {bytes : List UInt8} {text : List Char}
    (valid : Charset.Utf8.decode bytes = .ok text) (unsigned : ¬ Charset.Utf8.signature <+: bytes) :
    decode bytes = .ok text := by
  obtain rfl := Charset.Utf8.decode_eq_ok_iff.mp valid
  rw [decode_utf8, unmarked_eq_self]
  intro marked
  obtain ⟨rest, rfl⟩ := List.head?_eq_some_iff.mp marked
  exact unsigned ⟨Charset.Utf8.encode rest, rfl⟩

end TextFile

namespace Cleanup

/-- Whether a segment of bytes stays when identifiers are removed: it does unless it is a line that names
one of them. -/
def segmentStays (unwanted : List String) (segment : List UInt8) : Bool :=
  match Charset.Utf8.decode segment with
  | .ok line => Resource.keeps unwanted line
  | .error _ => true

@[simp]
theorem segmentStays_encode (unwanted : List String) (line : List Char) :
    segmentStays unwanted (Charset.Utf8.encode line) = Resource.keeps unwanted line := by
  rw [segmentStays, Charset.Utf8.decode_encode]

theorem segmentStays_eq_false_iff {unwanted : List String} {line : List Char} :
    segmentStays unwanted (Charset.Utf8.encode line) = false ↔
      ∃ name ∈ unwanted, Resource.Names line name := by
  rw [segmentStays_encode, ← Bool.not_eq_true, Resource.keeps_eq_true_iff]
  push Not
  exact exists_congr fun name => and_comm

/-- The bytes of what is left of a text are the segments that stay, put together. -/
theorem encode_removing (unwanted : List String) (text : String) :
    Charset.Utf8.encode (Resource.removing unwanted text).toList =
      [Charset.Utf8.newline].intercalate
        (((Charset.Utf8.encode text.toList).splitOn Charset.Utf8.newline).filter
          (segmentStays unwanted)) := by
  have stays : segmentStays unwanted ∘ Charset.Utf8.encode = Resource.keeps unwanted :=
    funext (segmentStays_encode unwanted)
  rw [Resource.removing, String.toList_ofList, Charset.Utf8.encode_unlines, Charset.Utf8.splitOn_encode,
    List.filter_map, stays]

/-- Cleaning a file that is stored in UTF-8 without a mark takes segments of its bytes away: of the pieces
between the newlines, all of which are in UTF-8, exactly the lines that name an unwanted identifier go, and
the others stay as they are. -/
theorem bytes_of_apply {cleanup : Cleanup} {path : String} {unwanted : List String}
    {before after : RunState} {result : Result} {bytes : List UInt8} {text : List Char}
    (means : Charset.meaning cleanup.charset = .charset (.utf8 false))
    (applied : (cleanup.apply ⟨[(path, unwanted)]⟩).perform before = (.ok result, after))
    (written : path ∈ result.written) (stored : before.disk.readBytes (Path.tidy path) = .ok bytes)
    (valid : Charset.Utf8.decode bytes = .ok text) (unsigned : ¬ Charset.Utf8.signature <+: bytes) :
    (∀ segment ∈ bytes.splitOn Charset.Utf8.newline, ∃ line, Charset.Utf8.decode segment = .ok line ∧
        (segmentStays unwanted segment = false ↔ ∃ name ∈ unwanted, Resource.Names line name)) ∧
      after.disk.readBytes (Path.tidy path) = .ok ([Charset.Utf8.newline].intercalate
        ((bytes.splitOn Charset.Utf8.newline).filter (segmentStays unwanted))) := by
  obtain ⟨place, name, old, contents, cleans⟩ := cleans_of_apply applied written
  obtain ⟨_, readsAfter⟩ := cleans.reads_spot
  obtain ⟨_, _, oldFile, reads, decoded⟩ := TextFile.read_eq_ok_iff.mp cleans.read_eq
  -- The text that was read is the one whose bytes were stored.
  obtain rfl : oldFile.bytes = bytes := Except.ok.inj (reads.readBytes_eq.symm.trans stored)
  obtain rfl : old.toList = text :=
    Except.ok.inj (decoded.symm.trans (TextFile.decode_of_unsigned valid unsigned))
  have oldBytes := Charset.Utf8.decode_eq_ok_iff.mp valid
  constructor
  · intro segment mem
    rw [oldBytes, Charset.Utf8.splitOn_encode] at mem
    obtain ⟨line, -, rfl⟩ := List.mem_map.mp mem
    exact ⟨line, Charset.Utf8.decode_encode line, segmentStays_eq_false_iff⟩
  · have encoded : Charset.Utf8.encode (Resource.removing unwanted old).toList = contents.bytes := by
      have encodedNamed := cleans.encoded
      rw [Codecs.encode_eq, TextFile.encodeNamed_eq means] at encodedNamed
      exact Except.ok.inj encodedNamed
    rw [readsAfter.readBytes_eq, ← encoded, oldBytes, encode_removing]

/-- A resource file with carriage returns, blanks at the end of a line, a letter outside ASCII, and no
newline at its end. -/
def returnsDisk : Disk where
  root := .folder "app"
    (.file "ui.strings"
      ⟨Charset.Utf8.encode "\"caf\u00E9\" = \"1\"; \r\n\"gone\" = \"2\";\r\n// end\r".toList, 0o644⟩ .empty)
    .empty
  here := []

/-- Cleaning the file of `returnsDisk` takes the bytes of one line away. -/
theorem bytes_of_apply_returnsDisk :
    ∃ after, (({} : Cleanup).apply ⟨[("app/ui.strings", ["gone"])]⟩).perform { disk := returnsDisk } =
        (.ok ⟨["app/ui.strings"], []⟩, after) ∧
      after.disk.readBytes "app/ui.strings" =
        .ok (Charset.Utf8.encode "\"caf\u00E9\" = \"1\"; \r\n// end\r".toList) := by
  have means : Charset.meaning ({} : Cleanup).charset = .charset (.utf8 false) := by decide +kernel
  have stored : returnsDisk.readBytes (Path.tidy "app/ui.strings") = .ok (Charset.Utf8.encode
      "\"caf\u00E9\" = \"1\"; \r\n\"gone\" = \"2\";\r\n// end\r".toList) := by
    decide +kernel
  have applied : (({} : Cleanup).apply ⟨[("app/ui.strings", ["gone"])]⟩).perform { disk := returnsDisk } =
      (.ok ⟨["app/ui.strings"], []⟩, _) :=
    Prod.ext (by decide +kernel) rfl
  obtain ⟨-, left⟩ := bytes_of_apply means applied (List.mem_singleton_self _) stored
    (Charset.Utf8.decode_encode _) (by decide +kernel)
  have tidy : Path.tidy "app/ui.strings" = "app/ui.strings" := by decide +kernel
  rw [tidy] at left
  exact ⟨_, applied, left.trans (congrArg Except.ok (by decide +kernel))⟩

end Cleanup

end StringAudit
