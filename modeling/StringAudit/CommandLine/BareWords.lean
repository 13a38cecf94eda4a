/-!
# Bare words

Two words on the command line may stand for switches without dashes.  `storyboard` does so as the last
argument, and the first `write` does so anywhere.  A word right behind an option that takes a value is
left alone.
-/

namespace StringAudit.CommandLine

/-- The options behind which a word is their value. -/
def awaitingOptions : List String :=
  ["--workers", "--config", "--json"]

/-- Whether the argument behind this one is its value. -/
def awaitsValue (arg : String) : Bool :=
  awaitingOptions.contains arg

/-- The arguments without the bare words, and which of the words were there. -/
structure BareWords where
  remaining : List String
  storyboards : Bool
  write : Bool
  deriving DecidableEq, Repr

/-- The word for storyboards. -/
def storyboardWord : String :=
  "storyboard"

/-- The word for writing. -/
def writeWord : String :=
  "write"

/-- Whether the last argument is the bare word for storyboards. -/
def endsWithStoryboard (args : List String) : Bool :=
  args.getLast? = some storyboardWord && !args.dropLast.getLast?.any awaitsValue

/-- The arguments without the first bare `write`, if there is one; `awaited` tells whether the first
argument is the value of an option in front. -/
def withoutWrite? : (awaited : Bool) → List String → Option (List String)
  | _, [] => none
  | awaited, arg :: rest =>
      if arg = writeWord ∧ awaited = false then some rest
      else (withoutWrite? (awaitsValue arg) rest).map (arg :: ·)

/-- Take the bare words out of the arguments. -/
def splitBareWords (args : List String) : BareWords :=
  let storyboards := endsWithStoryboard args
  let args := if storyboards then args.dropLast else args
  match withoutWrite? false args with
  | some remaining => ⟨remaining, storyboards, true⟩
  | none => ⟨args, storyboards, false⟩

end StringAudit.CommandLine
