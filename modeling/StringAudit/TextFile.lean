import StringAudit.Action
import StringAudit.Charset.Codecs

/-!
# Text files

A file that starts with a byte order mark of UTF-16 is read as UTF-16, every other as UTF-8, and a mark
in front is dropped.

A file is replaced in one step: the text goes into a temporary file beside it, which takes over the
permission bits of whatever the path led to and is then moved onto the path.  If any step fails the
temporary file is removed again, so that the disk is as before.
-/

namespace StringAudit.TextFile

/-- The text of the bytes of a file. -/
def decode (bytes : List UInt8) : Except DecodeFault (List Char) :=
  match bytes with
  | 0xFF :: 0xFE :: rest => Charset.Utf16.decode .littleEndian 2 rest
  | 0xFE :: 0xFF :: rest => Charset.Utf16.decode .bigEndian 2 rest
  | 0xEF :: 0xBB :: 0xBF :: rest => Charset.Utf8.decode rest
  | _ => Charset.Utf8.decode bytes

/-- The text of the file that a path leads to. -/
def read (path : String) (disk : Disk) : Except Failure String :=
  let shown := Path.tidy path
  if !Disk.isUsable path then .error (.breakdown .unusablePath)
  else if Disk.isAmong disk.refusals.reading path then
    .error (.unreadable path (Disk.Fault.message ⟨.denied, shown, none⟩))
  else match disk.readBytes shown with
    | .error fault => .error (.unreadable path fault.message)
    | .ok bytes =>
      match decode bytes with
      | .error fault => .error (.unreadable path fault.message)
      | .ok text => .ok (String.ofList text)

/-- The name of the n-th temporary file for a file. -/
def temporaryName (name : String) (n : Nat) : String :=
  let digits := Nat.toDigits 10 n
  "." ++ name ++ "." ++ String.ofList (List.replicate (8 - digits.length) '0' ++ digits) ++ ".tmp"

/-- How many names are tried for a temporary file. -/
def maxTries : Nat :=
  10000

/-- The permission bits of a new file. -/
def freshMode : Nat :=
  0o600

/-- The permission bits of an entry.  A disk keeps them for files only: those of a directory are taken to be
the usual ones. -/
def modeOf : Entry → Nat
  | .file contents => contents.mode
  | .link _ => 0o777
  | .folder _ => 0o755

/-- A place for a temporary file: the directory, the name in it and the path to show. -/
structure Slot where
  place : Place
  name : String
  path : String

/-- The first free slot for a temporary file beside a path. -/
def freeSlot (disk : Disk) (target : Path) : Except Disk.Fault Slot :=
  let holder := disk.absolute target.parent
  let name := temporaryName target.name
  let path := fun n => Path.join holder.text (name n)
  match disk.holder { holder with names := holder.names ++ [name 0] } with
  | .error cause => .error ⟨cause, path 0, none⟩
  | .ok (place, _) =>
      if Disk.maxNameBytes < (name 0).utf8ByteSize ∨ Disk.maxPathBytes < (path 0).utf8ByteSize then
        .error ⟨.nameTooLong, path 0, none⟩
      else
        match (List.range maxTries).find? fun n => (disk.named place (name n)).isNone with
        | some n => .ok ⟨place, name n, path n⟩
        | none => .error ⟨.present, path 0, none⟩

/-- The permission bits of what a path leads to; nothing if it leads nowhere. -/
def modeAt (disk : Disk) (path : String) : Except Disk.Fault (Option Nat) :=
  match disk.entry path with
  | .ok (_, entry) => .ok (some (modeOf entry))
  | .error .nameTooLong => .error ⟨.nameTooLong, path, none⟩
  | .error _ => .ok none

/-- Move the file in a slot onto a path; what stood there is gone, and a link is replaced itself. -/
def moveOnto (disk : Disk) (slot : Slot) (target : Path) : Except Disk.Fault Disk :=
  let fault := fun cause => Disk.Fault.mk cause slot.path (some target.text)
  if Disk.isAmong disk.refusals.replacing target.text then .error ⟨.full, target.text, none⟩
  else match disk.holder target with
    | .error cause => .error (fault cause)
    | .ok (_, none) => .error (fault .busy)
    | .ok (place, some name) =>
      match disk.named place name, disk.named slot.place slot.name with
      | some (.folder _), _ => .error (fault .isDirectory)
      | _, some moved => .ok ((disk.remove slot.place slot.name).put place name moved)
      | _, none => .error (fault .missing)

/-- Replace the file at a path by one that holds a text in a character set. -/
def replace [Codecs] (path text charset : String) (disk : Disk) : Except Failure Unit × Disk :=
  let target := Path.parse path
  let failed := fun reason => Except.error (Failure.unwritable path reason)
  match Codecs.encode charset text with
  | .error .unusableName => (.error (.breakdown .unusableCharset), disk)
  | .error fault => (failed fault.message, disk)
  | .ok bytes =>
    if !Disk.isUsable path then (.error (.breakdown .unusablePath), disk)
    else match freeSlot disk target with
      | .error fault => (failed fault.message, disk)
      | .ok slot =>
        let write := fun mode (d : Disk) => d.put slot.place slot.name (.file ⟨bytes, mode⟩)
        let fresh := write freshMode disk
        match modeAt fresh target.text with
        | .error fault => (failed fault.message, fresh.remove slot.place slot.name)
        | .ok mode =>
          let ready := write (mode.getD freshMode) fresh
          match moveOnto ready slot target with
          | .error fault => (failed fault.message, ready.remove slot.place slot.name)
          | .ok moved => (.ok (), moved)

end StringAudit.TextFile
