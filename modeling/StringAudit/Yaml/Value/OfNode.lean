import StringAudit.Yaml.Node
import StringAudit.Yaml.Scalar
import StringAudit.Yaml.Value

/-!
# From nodes to values

Every node has a value by the rules of its tag, unless something is wrong with it or below it.  Of several
faults the one nearest to the root counts, and of those at one depth the first.  The members of a
collection are one level deeper than the collection, and so is the fault that a node is no collection of
the kind that its tag asks for.

A mapping may stand for a text: that of its entry whose key has the tag for values.
-/

namespace StringAudit.Yaml

/-- A value, and what is wrong with it: faults with their depths.  With faults the value has no
meaning. -/
structure Construction where
  value : Value
  faults : List (Nat × Fault) := []

namespace Construction

/-- No value. -/
def faulty (depth : Nat) (fault : Fault) : Construction :=
  ⟨.null, [(depth, fault)]⟩

/-- The fault that counts. -/
def firstFault? (c : Construction) : Option Fault :=
  let least := (c.faults.map (·.1)).min?
  (c.faults.find? fun f => some f.1 = least).map (·.2)

/-- The value, if nothing is wrong with it. -/
def result (c : Construction) : Except Fault Value :=
  match c.firstFault? with
  | some fault => .error fault
  | none => .ok c.value

end Construction

/-- The construction of an entry of a mapping. -/
structure EntryConstruction where
  /-- The node of the key. -/
  node : Node
  key : Construction
  value : Construction

namespace Node

mutual

/-- The text that a node stands for. -/
def text? : Node → Option WideText
  | scalar _ text => some text
  | mapping _ _ written => valueText? written
  | _ => none

/-- The text of the first entry whose key has the tag for values. -/
def valueText? : List (Node × Node) → Option WideText
  | [] => none
  | (key, value) :: rest => if key.tag = .value then value.text? else valueText? rest

end

/-- The construction of a node that is not a collection of the kind that its tag asks for, at a depth,
with the text that it stands for. -/
def constructText (depth : Nat) (tag : Tag) (text : Option WideText) : Construction :=
  match tag with
  | .seq | .map | .set | .orderedMap | .pairs => .faulty (depth + 1) .malformed
  | .merge | .value | .other => .faulty depth .malformed
  | tag =>
      match text.bind (Scalar.value? tag) with
      | some (.ok value) => ⟨value, []⟩
      | some (.error fault) => .faulty depth fault
      | none => .faulty depth .malformed

/-- The construction of the key of a mapping; a key with the tag for values is a text. -/
def keyConstruction (depth : Nat) (entry : EntryConstruction) : Construction :=
  if entry.node.tag = .value then constructText depth .str entry.node.text? else entry.key

/-- The entries of a mapping at a depth, without those that merge others. -/
def entriesOf (depth : Nat) (entries : List EntryConstruction) :
    List (Value × Value) × List (Nat × Fault) :=
  let own := entries.filter fun e => !e.node.isMergeKey
  (own.map fun e => ((keyConstruction depth e).value, e.value.value),
    own.flatMap fun e =>
      let key := keyConstruction depth e
      key.faults ++ (if key.value.canBeKey then [] else [(depth, .malformed)]) ++ e.value.faults)

/-- The construction of a mapping from the entries merged into it and those written in it. -/
def constructMapping (depth : Nat) (build : List (Value × Value) → Value)
    (merged : Option (List EntryConstruction)) (written : List EntryConstruction) : Construction :=
  match merged with
  | none => .faulty (depth + 1) .malformed
  | some merged =>
      let (entries, faults) := entriesOf (depth + 1) (merged ++ written)
      ⟨build entries, faults⟩

/-- The construction of a sequence of single pairs; `items` holds the entries of each item. -/
def constructPairs (depth : Nat) (items : List (List EntryConstruction)) : Construction where
  value := .sequence (items.flatMap fun item => item.map fun e => .sequence [e.key.value, e.value.value])
  faults := items.flatMap fun item =>
    match item with
    | [e] => e.key.faults ++ e.value.faults
    | _ => [(depth + 1, .malformed)]

mutual

/-- The construction of a node at a depth. -/
def construct (depth : Nat) : Node → Construction
  | scalar tag text => constructText depth tag text
  | sequence tag items =>
      match tag with
      | .seq =>
          let members := constructItems (depth + 1) items
          ⟨.sequence (members.map (·.value)), members.flatMap (·.faults)⟩
      | .orderedMap | .pairs => constructPairs depth (constructItemEntries (depth + 1) items)
      | tag => constructText depth tag none
  | mapping tag merged written =>
      match tag with
      | .map =>
          constructMapping depth .mapping (constructMerged (depth + 1) merged)
            (constructEntries (depth + 1) written)
      | .set =>
          constructMapping depth (fun entries => .set (entries.map (·.1)))
            (constructMerged (depth + 1) merged) (constructEntries (depth + 1) written)
      | tag => constructText depth tag (valueText? written)
  | enclosing _ => ⟨.enclosing, []⟩

/-- The constructions of nodes. -/
def constructItems (depth : Nat) : List Node → List Construction
  | [] => []
  | n :: rest => construct depth n :: constructItems depth rest

/-- The constructions of the entries of mappings; other nodes have none. -/
def constructItemEntries (depth : Nat) : List Node → List (List EntryConstruction)
  | [] => []
  | mapping _ _ written :: rest => constructEntries depth written :: constructItemEntries depth rest
  | _ :: rest => [] :: constructItemEntries depth rest

/-- The constructions of entries. -/
def constructEntries (depth : Nat) : List (Node × Node) → List EntryConstruction
  | [] => []
  | (key, value) :: rest =>
      ⟨key, construct depth key, construct depth value⟩ :: constructEntries depth rest

/-- The constructions of the entries that are merged into a mapping. -/
def constructMerged (depth : Nat) : Option (List (Node × Node)) → Option (List EntryConstruction)
  | none => none
  | some entries => some (constructEntries depth entries)

end

/-- The value of the root of a document. -/
def value (root : Node) : Except Fault Value :=
  (root.construct 0).result

end Node

end StringAudit.Yaml
