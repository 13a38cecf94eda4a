import StringAudit.Yaml.Token.TagName

/-!
# From text to tokens

The lexer goes through a text token by token.  Outside brackets it turns indentation into tokens that
open and close block collections.  A scalar, an alias, an anchor, a tag or a bracket may turn out to be
the key of a mapping, when a colon follows in the same line; then the tokens that announce the key are
put in front of it after the fact.  For this the lexer remembers at most one such place for each level
of brackets.

`tokens` gives the tokens of a text up to its end or its first fault.
-/

namespace StringAudit.Yaml

/-- A place where a key may begin. -/
structure KeyPlace where
  /-- The number of tokens in front of it. -/
  token : Nat
  /-- Whether there must be a key: the place is where the current block mapping has its keys. -/
  required : Bool
  index : Nat
  line : Nat
  column : Nat
  deriving DecidableEq, Repr

/-- The state of the lexer. -/
structure Lexer where
  cursor : Cursor
  /-- The tokens so far. -/
  tokens : List Token := []
  /-- How many brackets are open. -/
  level : Nat := 0
  /-- The column of the current block collection. -/
  indent : Int := -1
  /-- The columns of the collections around it, innermost first. -/
  outer : List Int := []
  /-- Whether a key may begin here. -/
  keyAllowed : Bool := true
  /-- The places where a key may begin, by level. -/
  places : List (Nat × KeyPlace) := []
  /-- Whether the end of the text has been reached. -/
  finished : Bool := false
  deriving DecidableEq, Repr

namespace Lexer

/-- The farthest that the colon may stand from the beginning of its key. -/
def maxKeyLength : Nat :=
  1024

/-- Add a token. -/
def push (x : Lexer) (t : Token) : Lexer :=
  { x with tokens := x.tokens ++ [t] }

/-- Forget the places where a key can no longer begin; a required key that is missing is a fault. -/
def dropStale (x : Lexer) : Except Fault Lexer :=
  let stale := fun (p : Nat × KeyPlace) =>
    p.2.line ≠ x.cursor.line || decide (p.2.index + maxKeyLength < x.cursor.index)
  if x.places.any fun p => stale p && p.2.required then .error .malformed
  else .ok { x with places := x.places.filter fun p => !stale p }

/-- Forget the place on the current level; a required key that is missing is a fault. -/
def dropPlace (x : Lexer) : Except Fault Lexer :=
  match x.places.lookup x.level with
  | some p =>
      if p.required then .error .malformed
      else .ok { x with places := x.places.filter (·.1 ≠ x.level) }
  | none => .ok x

/-- Remember that a key may begin here. -/
def markPlace (x : Lexer) : Except Fault Lexer := do
  if x.keyAllowed then
    let required := x.level = 0 && x.indent = x.cursor.column
    let x ← x.dropPlace
    let place : KeyPlace := ⟨x.tokens.length, required, x.cursor.index, x.cursor.line, x.cursor.column⟩
    pure { x with places := (x.level, place) :: x.places }
  else pure x

/-- Close the block collections that are indented deeper than a column. -/
def closeBlocksTo (column : Int) : List Int → Lexer → Lexer
  | [], x => x
  | around :: rest, x =>
      if column < x.indent then
        closeBlocksTo column rest { x.push .blockEnd with indent := around, outer := rest }
      else x

/-- Close the block collections that are indented deeper than a column; inside brackets there are
none. -/
def unwind (column : Int) (x : Lexer) : Lexer :=
  if x.level = 0 then closeBlocksTo column x.outer x else x

/-- Open a block collection in a column if it is indented deeper than the current one, by a token in
front of the token with the given number. -/
def openBlock (x : Lexer) (column number : Nat) (t : Token) : Lexer :=
  if x.indent < column then
    { x with
      indent := column
      outer := x.indent :: x.outer
      tokens := x.tokens.insertIdx number t }
  else x

/-- The position of the next token and whether a line ended in front of it: spaces, comments and line
breaks are passed over. -/
def gap : Bool → List Char → Nat × Bool
  | _, [] => (0, false)
  | inComment, c :: rest =>
      if isBreak c then ((gap false rest).1 + 1, true)
      else if inComment || c = ' ' then
        let (n, broken) := gap inComment rest
        (n + 1, broken)
      else if c = '#' then
        let (n, broken) := gap true rest
        (n + 1, broken)
      else (0, false)

/-- Move to the next token. -/
def toToken (x : Lexer) : Lexer :=
  let start := if x.cursor.index = 0 ∧ x.cursor.peek = some '\uFEFF' then x.cursor.next else x.cursor
  let (n, broken) := gap false start.rest
  { x with
    cursor := start.skip n
    keyAllowed := x.keyAllowed || (broken && x.level = 0) }

/-- Add a token of a number of characters. -/
def take (x : Lexer) (n : Nat) (t : Token) : Lexer :=
  { x.push t with cursor := x.cursor.skip n }

/-- The end of the text. -/
def finish (x : Lexer) : Except Fault Lexer := do
  let x ← (x.unwind (-1)).dropPlace
  pure { x.push .endOfText with finished := true }

/-- A token that ends all block collections. -/
def atMargin (x : Lexer) : Except Fault Lexer := do
  let x ← (x.unwind (-1)).dropPlace
  pure { x with keyAllowed := false }

/-- An opening bracket. -/
def openBracket (x : Lexer) (t : Token) : Except Fault Lexer := do
  let x ← x.markPlace
  pure { x.take 1 t with level := x.level + 1, keyAllowed := true }

/-- A closing bracket. -/
def closeBracket (x : Lexer) (t : Token) : Except Fault Lexer := do
  let x ← x.dropPlace
  pure { x.take 1 t with level := x.level - 1, keyAllowed := false }

/-- A comma between brackets. -/
def flowEntry (x : Lexer) : Except Fault Lexer := do
  let x ← x.dropPlace
  pure { x.take 1 .flowEntry with keyAllowed := true }

/-- The dash of a sequence. -/
def blockEntry (x : Lexer) : Except Fault Lexer := do
  if x.level = 0 ∧ x.keyAllowed = false then throw .malformed
  let x := if x.level = 0 then x.openBlock x.cursor.column x.tokens.length .blockSequenceStart else x
  let x ← x.dropPlace
  pure { x.take 1 .blockEntry with keyAllowed := true }

/-- The question mark in front of a key. -/
def explicitKey (x : Lexer) : Except Fault Lexer := do
  if x.level = 0 ∧ x.keyAllowed = false then throw .malformed
  let x := if x.level = 0 then x.openBlock x.cursor.column x.tokens.length .blockMappingStart else x
  let x ← x.dropPlace
  pure { x.take 1 .key with keyAllowed := x.level = 0 }

/-- The colon behind a key. -/
def value (x : Lexer) : Except Fault Lexer := do
  match x.places.lookup x.level with
  | some place =>
      let x := { x with
        places := x.places.filter (·.1 ≠ x.level)
        tokens := x.tokens.insertIdx place.token .key }
      let x := if x.level = 0 then x.openBlock place.column place.token .blockMappingStart else x
      pure { x.take 1 .value with keyAllowed := false }
  | none =>
      if x.level = 0 ∧ x.keyAllowed = false then throw .malformed
      let x := if x.level = 0 then x.openBlock x.cursor.column x.tokens.length .blockMappingStart else x
      let x ← x.dropPlace
      pure { x.take 1 .value with keyAllowed := x.level = 0 }

/-- A token that may be a key or the beginning of one. -/
def keyLike (x : Lexer) (scan : Cursor → Except Fault (Token × Cursor)) : Except Fault Lexer := do
  let x ← x.markPlace
  let (t, cursor) ← scan x.cursor
  pure { x.push t with cursor, keyAllowed := false }

/-- A plain scalar. -/
def plain (x : Lexer) : Except Fault Lexer := do
  let x ← x.markPlace
  let scanned := Plain.scan (x.level ≠ 0) (x.indent + 1) x.cursor
  pure { x.push (.scalar (String.ofList scanned.text) true) with
    cursor := scanned.cursor
    keyAllowed := scanned.broken }

/-- A quoted scalar. -/
def quoted (x : Lexer) (style : Quoted.Style) : Except Fault Lexer :=
  x.keyLike fun c => do
    let (text, c) ← Quoted.scan style c
    pure (.scalar text false, c)

/-- A block scalar. -/
def block (x : Lexer) (isFolded : Bool) : Except Fault Lexer := do
  let x ← x.dropPlace
  let (text, cursor) ← Block.scan isFolded x.indent x.cursor
  pure { x.push (.scalar (String.ofList text) false) with cursor, keyAllowed := true }

/-- The characters with which a plain scalar cannot begin, unless another character follows some of
them. -/
def indicators : List Char :=
  "-?:,[]\x7b\x7d#&*!|>'\"%@`".toList

/-- Whether a plain scalar begins with a character in front of others. -/
def beginsPlain (level : Nat) (c : Char) (rest : List Char) : Bool :=
  !(isGap c || isBreak c || indicators.contains c) ||
    (!atGap rest && (c = '-' || (level = 0 && (c = '?' || c = ':'))))

/-- The token at the position of the lexer. -/
def token (x : Lexer) : Except Fault Lexer :=
  match x.cursor.rest with
  | [] => x.finish
  | c :: rest =>
      let margin := x.cursor.column = 0
      let indicates := x.level ≠ 0 || atGap rest
      if c = '%' ∧ margin then do
        let x ← x.atMargin
        let (t, cursor) ← TagName.directive x.cursor
        pure { x.push t with cursor }
      else if margin ∧ atDocumentMark (c :: rest) then do
        let x ← x.atMargin
        pure (x.take 3 (if c = '-' then .documentStart else .documentEnd))
      else if c = '[' then x.openBracket .flowSequenceStart
      else if c = '{' then x.openBracket .flowMappingStart
      else if c = ']' then x.closeBracket .flowSequenceEnd
      else if c = '}' then x.closeBracket .flowMappingEnd
      else if c = ',' then x.flowEntry
      else if c = '-' ∧ atGap rest then x.blockEntry
      else if c = '?' ∧ indicates then x.explicitKey
      else if c = ':' ∧ indicates then x.value
      else if c = '*' then x.keyLike fun c => do
        let (name, c) ← TagName.anchor c
        pure (.alias name, c)
      else if c = '&' then x.keyLike fun c => do
        let (name, c) ← TagName.anchor c
        pure (.anchor name, c)
      else if c = '!' then x.keyLike TagName.scan
      else if c = '|' ∧ x.level = 0 then x.block false
      else if c = '>' ∧ x.level = 0 then x.block true
      else if c = '\x27' then x.quoted .single
      else if c = '"' then x.quoted .double
      else if beginsPlain x.level c rest then x.plain
      else throw .malformed

/-- Move to the next token and add it. -/
def step (x : Lexer) : Except Fault Lexer := do
  let x ← x.toToken.dropStale
  (x.unwind x.cursor.column).token

/-- The tokens from a state on.  The fuel bounds the number of steps. -/
def run : Nat → Lexer → List Token
  | 0, x => x.tokens ++ [.broken .malformed]
  | n + 1, x =>
      match x.step with
      | .error fault => x.tokens ++ [.broken fault]
      | .ok next => if next.finished then next.tokens else run n next

end Lexer

/-- The tokens of a text, up to its end or its first fault. -/
def tokens (text : List Char) : List Token :=
  Lexer.run (text.length + 1) { cursor := { rest := text } }

end StringAudit.Yaml
