import StringAudit.Yaml.Node
import StringAudit.Yaml.Plain
import StringAudit.Yaml.Token

/-!
# From tokens to nodes

The grammar of documents, by recursive descent over the tokens.  A text holds at most one document; in
front of it stand its directives.  Where the grammar allows a node and there is none, the node is the
empty scalar.

An anchor names the node behind it for the rest of the document, and must not be used twice.  `ofTokens`
gives the node of the document, or nothing if there is no document.
-/

namespace StringAudit.Yaml

/-- What the tokens that are left are read with. -/
structure Source where
  tokens : List Token
  /-- The beginnings of tags by their handles. -/
  handles : List (String × String) := []
  /-- The nodes by their anchors, latest first; nothing for a collection that is still open. -/
  anchors : List (String × Option Node) := []

/-- A reading of tokens. -/
abbrev Reading :=
  StateT Source (Except Fault)

namespace Reading

/-- The next token. -/
def peek : Reading Token := do
  match (← get).tokens with
  | .broken fault :: _ => throw fault
  | t :: _ => pure t
  | [] => pure .endOfText

/-- Pass over the next token. -/
def advance : Reading Unit :=
  modify fun s => { s with tokens := s.tokens.drop 1 }

/-- Pass over the next token if it is the given one, and tell whether it was. -/
def accept (t : Token) : Reading Bool := do
  if (← peek) = t then
    advance
    pure true
  else pure false

/-- Pass over the next token, which must be the given one. -/
def expect (t : Token) : Reading Unit := do
  unless ← accept t do throw .malformed

/-- The empty scalar. -/
def emptyScalar : Node :=
  .scalar .null ""

/-- The empty scalar if one of the given tokens is next, and otherwise what another reading gives. -/
def orEmpty (ends : List Token) (reading : Reading Node) : Reading Node := do
  if ends.contains (← peek) then pure emptyScalar else reading

/-- What stands behind the given token: the empty scalar if the token is missing. -/
def behind (t : Token) (ends : List Token) (reading : Reading Node) : Reading Node := do
  if ← accept t then orEmpty ends reading else pure emptyScalar

/-- The node of an anchor. -/
def aliased (name : String) : Reading Node := do
  match (← get).anchors.lookup name with
  | some (some node) => pure node
  | some none => pure (.enclosing name)
  | none => throw .malformed

/-- A tag in full. -/
def fullTag (handle : Option String) (rest : String) : Reading String := do
  match handle with
  | none => pure rest
  | some name =>
      match (← get).handles.lookup name with
      | some beginning => pure (beginning ++ rest)
      | none => throw .malformed

/-- What stands in front of the content of a node. -/
structure Properties where
  anchor : Option String := none
  /-- The handle and the rest of the tag. -/
  written : Option (Option String × String) := none

/-- The properties at this place: an anchor and a tag in either order. -/
def properties : Reading Properties := do
  match ← peek with
  | .anchor name =>
      advance
      match ← peek with
      | .tag handle rest => advance; pure ⟨name, some (handle, rest)⟩
      | _ => pure ⟨name, none⟩
  | .tag handle rest =>
      advance
      match ← peek with
      | .anchor name => advance; pure ⟨name, some (handle, rest)⟩
      | _ => pure ⟨none, some (handle, rest)⟩
  | _ => pure {}

/-- The tag of a scalar.  A lone exclamation mark asks for the tag of a plain scalar. -/
def scalarTag (tag : Option String) (plain : Bool) (text : String) : Tag :=
  match tag with
  | none => if plain then Tag.ofPlain text else .str
  | some "!" => Tag.ofPlain text
  | some tag => Tag.ofText tag

/-- The tag of a collection of the given type. -/
def collectionTag (tag : Option String) (usual : Tag) : Tag :=
  match tag with
  | none => usual
  | some "!" => usual
  | some tag => Tag.ofText tag

/-- Let an anchor name a node. -/
def name (anchor : Option String) (node : Option Node) : Reading Unit :=
  match anchor with
  | some anchor => modify fun s => { s with anchors := (anchor, node) :: s.anchors }
  | none => pure ()

/-- An anchor must not name two nodes. -/
def checkAnchor (anchor : Option String) : Reading Unit := do
  let anchors := (← get).anchors
  if anchor.any fun a => (anchors.lookup a).isSome then throw .malformed

/-- A collection with an anchor, which stands for a collection around it while it is read. -/
def collection (anchor : Option String) (reading : Reading Node) : Reading Node := do
  name anchor none
  let node ← reading
  name anchor (some node)
  pure node

/-- A scalar with an anchor. -/
def anchored (anchor : Option String) (node : Node) : Reading Node := do
  name anchor (some node)
  pure node

/-- Where a node stands. -/
inductive Context
  /-- Between brackets. -/
  | flow
  | block
  /-- In a block mapping, where the entries of a sequence need no indentation of their own. -/
  | member
  deriving DecidableEq, Repr

mutual

/-- The node at this place. -/
def node (context : Context) : Nat → Reading Node
  | 0 => throw .malformed
  | n + 1 => do
      if let .alias name ← peek then
        advance
        aliased name
      else
        let p ← properties
        let tag ← p.written.mapM fun t => fullTag t.1 t.2
        let sequence := fun items => Node.sequence (collectionTag tag .seq) items
        let mapping := fun entries => Node.ofEntries (collectionTag tag .map) p.anchor entries
        let next ← peek
        checkAnchor p.anchor
        match next with
        | .scalar text plain =>
            advance
            anchored p.anchor (.scalar (scalarTag tag plain text.plain) text)
        | .flowSequenceStart =>
            advance
            collection p.anchor (sequence <$> flowItems true n)
        | .flowMappingStart =>
            advance
            collection p.anchor (mapping <$> flowEntries true n)
        | other =>
            if other = .blockEntry ∧ context = .member then
              collection p.anchor (sequence <$> indentlessItems n)
            else if other = .blockSequenceStart ∧ context ≠ .flow then
              advance
              collection p.anchor (sequence <$> blockItems n)
            else if other = .blockMappingStart ∧ context ≠ .flow then
              advance
              collection p.anchor (mapping <$> blockEntries n)
            else if p.anchor.isSome || p.written.isSome then
              anchored p.anchor (.scalar (scalarTag tag true "") "")
            else throw .malformed

/-- The items of a block sequence. -/
def blockItems : Nat → Reading (List Node)
  | 0 => throw .malformed
  | n + 1 => do
      if ← accept .blockEntry then
        let first ← orEmpty [.blockEntry, .blockEnd] (node .block n)
        pure (first :: (← blockItems n))
      else
        expect .blockEnd
        pure []

/-- The items of a sequence without an indentation of its own. -/
def indentlessItems : Nat → Reading (List Node)
  | 0 => throw .malformed
  | n + 1 => do
      if ← accept .blockEntry then
        let first ← orEmpty [.blockEntry, .key, .value, .blockEnd] (node .block n)
        pure (first :: (← indentlessItems n))
      else pure []

/-- The entries of a block mapping. -/
def blockEntries : Nat → Reading (List (Node × Node))
  | 0 => throw .malformed
  | n + 1 => do
      let ends := [Token.key, .value, .blockEnd]
      if ← accept .key then
        let key ← orEmpty ends (node .member n)
        let value ← behind .value ends (node .member n)
        pure ((key, value) :: (← blockEntries n))
      else
        expect .blockEnd
        pure []

/-- The items of a sequence between brackets; a key stands for a mapping with one entry. -/
def flowItems (atStart : Bool) : Nat → Reading (List Node)
  | 0 => throw .malformed
  | n + 1 => do
      if ← accept .flowSequenceEnd then pure []
      else
        unless atStart do expect .flowEntry
        if ← accept .key then
          let key ← orEmpty [.value, .flowEntry, .flowSequenceEnd] (node .flow n)
          let value ← behind .value [.flowEntry, .flowSequenceEnd] (node .flow n)
          pure (Node.ofEntries .map none [(key, value)] :: (← flowItems false n))
        else if ← accept .flowSequenceEnd then pure []
        else
          let first ← node .flow n
          pure (first :: (← flowItems false n))

/-- The entries of a mapping between brackets; a node that is no key is a key with an empty value. -/
def flowEntries (atStart : Bool) : Nat → Reading (List (Node × Node))
  | 0 => throw .malformed
  | n + 1 => do
      if ← accept .flowMappingEnd then pure []
      else
        unless atStart do expect .flowEntry
        if ← accept .key then
          let key ← orEmpty [.value, .flowEntry, .flowMappingEnd] (node .flow n)
          let value ← behind .value [.flowEntry, .flowMappingEnd] (node .flow n)
          pure ((key, value) :: (← flowEntries false n))
        else if ← accept .flowMappingEnd then pure []
        else
          let key ← node .flow n
          pure ((key, emptyScalar) :: (← flowEntries false n))

end

/-- The handles that need no directive. -/
def usualHandles : List (String × String) :=
  [("!", "!"), ("!!", Tag.beginning)]

/-- Directives with the given handles declared before them: at most one of them is a version, which must
be the first of the language, and none declares a handle again. -/
def readDirectives (versionSeen : Bool) (handles : List (String × String)) :
    List Token → Except Fault (List (String × String))
  | .directive (.version major _) :: rest =>
      if versionSeen ∨ major ≠ 1 then .error .malformed else readDirectives true handles rest
  | .directive (.handle name beginning) :: rest =>
      if (handles.lookup name).isSome then .error .malformed
      else readDirectives versionSeen ((name, beginning) :: handles) rest
  | .directive .reserved :: rest => readDirectives versionSeen handles rest
  | _ => .ok (handles ++ usualHandles)

/-- Whether a token is a directive. -/
def isDirective : Token → Bool
  | .directive _ => true
  | _ => false

/-- The directives in front of a document. -/
def directives : Reading Unit := do
  let s ← get
  let handles ← readDirectives false [] s.tokens
  set { s with tokens := s.tokens.dropWhile isDirective, handles }

/-- Pass over the marks at the end of a document. -/
def documentEnds : Reading Unit :=
  modify fun s => { s with tokens := s.tokens.dropWhile (· = .documentEnd) }

/-- Whether a token begins a document explicitly, or there is none. -/
def isExplicit (t : Token) : Bool :=
  isDirective t || t = .documentStart || t = .endOfText

/-- The node of the only document, if there is one. -/
def document (fuel : Nat) : Reading (Option Node) := do
  let next ← peek
  if next = .endOfText then pure none
  else
    let root ←
      if isExplicit next then do
        directives
        expect .documentStart
        let next ← peek
        if isExplicit next || next = .documentEnd then pure emptyScalar else node .block fuel
      else do
        directives
        node .block fuel
    documentEnds
    expect .endOfText
    pure (some root)

end Reading

/-- The node of the document of which the tokens are given; nothing if there is no document. -/
def Node.ofTokens (tokens : List Token) : Except Fault (Option Node) :=
  (Reading.document (2 * tokens.length + 2)).run' { tokens }

end StringAudit.Yaml
