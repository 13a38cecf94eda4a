import Std.Time
import StringAudit.CommandLine.Run
import StringAudit.Yaml.Load

/-!
# The program

The program loads the part of the disk that a run can touch, makes the run on it, prints what the run has
written to its streams, and saves the files that the run has changed.

That part is what stands below the roots, the settings file and what stands at the path of the document,
together with the links on the way there and with what links lead to.  Only the contents that a run can ask
for are loaded.  A directory that cannot be listed and a file that cannot be read become refusals of the
loaded disk.
-/

namespace StringAudit.Program

/-- Loading a disk. -/
abbrev Loading :=
  StateT Disk IO

/-- An entry of a directory of the real disk. -/
def entryOf (directory name : String) : IO.FS.DirEntry :=
  ⟨directory, name⟩

/-- The result of an operation on the real disk, if it succeeds. -/
def attempt {α : Type} (operation : IO α) : IO (Option α) :=
  tryCatch (some <$> operation) fun _ => pure none

/-- The place that a path leads to on the real disk. -/
def placeOf (path : String) : IO Place := do
  return Disk.steps (← IO.FS.realPath path).toString

/-- Add an entry at a place where there is none yet. -/
def addAt (entry : Entry) : Place → Directory → Directory
  | [], d => d
  | [name], d => if (d.find? name).isSome then d else d.insert name entry
  | name :: rest, d =>
      match d.find? name with
      | none => d.insert name (.folder (addAt entry rest .empty))
      | some (.folder inner) => d.insert name (.folder (addAt entry rest inner))
      | some _ => d

/-- Add an entry to the loaded disk. -/
def add (place : Place) (entry : Entry) : Loading Unit :=
  modify fun disk => { disk with root := addAt entry place disk.root }

/-- Whether a run may ask for the contents of a file of this name. -/
def isReadable (name : String) : Bool :=
  let search := Collection.Search.of (Audit.sourceExtensions true ++ Audit.resourceExtensions) []
  search.matches name

/-- The target of a link that leads nowhere. -/
def nowhere : String :=
  "\x00"

/-- Load an entry of a directory, with what it leads to if it is a link.  `path` is the path by which a
run knows it. -/
partial def loadEntry (path directory name : String) (readable : Bool) : Loading Unit := do
  let entry := entryOf directory name
  let some metadata ← attempt entry.path.symlinkMetadata | return
  let place := (← placeOf directory) ++ [name]
  match metadata.type with
  | .dir => add place (.folder .empty)
  | .symlink =>
      match ← attempt (IO.FS.realPath entry.path) with
      | none => add place (.link nowhere)
      | some target =>
          let goal := Path.parse target.toString
          add place (.link goal.text)
          if goal.names ≠ [] then loadEntry path goal.parent.text goal.name readable
  | _ =>
      if readable then
        match ← attempt (IO.FS.readBinFile entry.path) with
        | some bytes => add place (.file ⟨bytes.toList, 0o644⟩)
        | none =>
            add place (.file ⟨[], 0o644⟩)
            modify fun disk =>
              { disk with refusals.reading := path :: disk.refusals.reading }
      else add place (.file ⟨[], 0o644⟩)

/-- Load everything below a directory; `path` is the path by which a run knows it. -/
partial def loadBelow (path directory : String) : Loading Unit := do
  match ← attempt (entryOf directory "").root.readDir with
  | none => modify fun disk => { disk with refusals.listing := path :: disk.refusals.listing }
  | some entries =>
      for entry in entries do
        let inner := Path.join path entry.fileName
        loadEntry inner directory entry.fileName (isReadable entry.fileName)
        if let some metadata ← attempt entry.path.symlinkMetadata then
          if let .dir := metadata.type then loadBelow inner (Path.join directory entry.fileName)

/-- Load what stands on the way of the pieces of a path, and at its end. -/
def loadAlong (path : String) (readable : Bool) : String → List String → Loading Unit
  | _, [] => pure ()
  | directory, piece :: rest => do
      if piece ≠ "." ∧ piece ≠ ".." then loadEntry path directory piece readable
      loadAlong path readable (Path.join directory piece) rest

/-- Load what stands at a path. -/
def loadPath (path : String) (readable : Bool) : Loading Unit :=
  loadAlong path readable (if path.startsWith "/" then "/" else ".") (Disk.steps path)

/-- Load what a run with the given options can touch. -/
def loadFor (options : CommandLine.Options) : Loading Unit := do
  for root in options.roots do
    loadPath root false
    if (← get).isDirectory root then loadBelow root root
  match options.config with
  | .given path => loadPath path true
  | _ => loadPath (Settings.usualPath none) true
  if let some path := CommandLine.documentPath? options then loadPath path false

/-- The part of the disk that a run with the given arguments can touch. -/
def load (args : List String) : IO Disk := do
  let here ← placeOf "."
  let bare : Disk := { root := addAt (.folder .empty) here .empty, here }
  match CommandLine.request args with
  | .accepted options => return (← (loadFor options).run bare).2
  | _ => return bare

/-- Write the files that differ between two states of a directory of the real disk. -/
partial def saveBelow (directory : String) (old new : Directory) : IO Unit := do
  for (name, entry) in new.toList do
    let path := Path.join directory name
    match entry, old.find? name with
    | .folder inner, some (.folder before) => saveBelow path before inner
    | .file contents, some (.file before) =>
        if contents.bytes ≠ before.bytes then IO.FS.writeBinFile path ⟨contents.bytes.toArray⟩
    | .file contents, before =>
        if before.isSome then IO.FS.removeFile path
        IO.FS.writeBinFile path ⟨contents.bytes.toArray⟩
        IO.Prim.setAccessRights path contents.mode.toUInt32
    | _, _ => pure ()

/-- The hexadecimal digits of bytes. -/
def hexadecimal (bytes : List UInt8) : String :=
  String.ofList (bytes.flatMap fun b => (Nat.toDigits 16 (256 + b.toNat)).drop 1)

/-- A new name for a run: a random universal identifier of version 4. -/
def freshName : IO String := do
  let random := (← IO.getRandomBytes 16).toList
  let marked := (random.modify 6 fun b => b % 16 + 0x40).modify 8 fun b => b % 64 + 0x80
  let group := fun first n => hexadecimal ((marked.drop first).take n)
  return "-".intercalate [group 0 4, group 4 2, group 6 2, group 8 2, group 10 6]

/-- The present time. -/
def now : IO String := do
  let time := Std.Time.DateTime.ofTimestamp (← Std.Time.Timestamp.now) .UTC
  return time.format "uuuu-MM-dd'T'HH:mm:ss.SSSSSSxxx"

/-- Print the bytes of a stream. -/
def emit (stream : IO.FS.Stream) (bytes : List UInt8) : IO Unit := do
  stream.write ⟨bytes.toArray⟩
  stream.flush

end StringAudit.Program

open StringAudit StringAudit.Program in
/-- Run the program. -/
def main (args : List String) : IO UInt32 := do
  let disk ← load args
  let stamp := ⟨← freshName, ← now⟩
  let (outcome, state) := (CommandLine.run stamp args).perform { disk }
  emit (← IO.getStdout) state.console.out.flush.sent
  emit (← IO.getStderr) state.console.err.flush.sent
  saveBelow "/" disk.root state.disk.root
  match outcome with
  | .ok exit => return exit.code.toUInt32
  | .error failure =>
      IO.eprintln ("fatal: " ++ failure.message)
      return 1
