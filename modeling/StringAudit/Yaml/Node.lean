import StringAudit.Text.Wide
import StringAudit.Yaml.Tag

/-!
# YAML nodes

A node is a scalar, a sequence or a mapping with its type.  An alias is replaced by the node that it
stands for, except inside that node itself, where it is a node of its own.

A mapping may ask to merge others into it: the entries of those come first, so that its own entries count
more.  They are found when the mapping is built (`mapping.merged`), and are missing if what is to be
merged is no mapping.
-/

namespace StringAudit.Yaml

/-- A node. -/
inductive Node
  | scalar (tag : Tag) (text : WideText)
  | sequence (tag : Tag) (items : List Node)
  /-- A mapping with the entries that are merged into it and all that are written in it. -/
  | mapping (tag : Tag) (merged : Option (List (Node × Node))) (written : List (Node × Node))
  /-- An alias of a collection inside that collection. -/
  | enclosing (anchor : String)

namespace Node

/-- The type of a node. -/
def tag : Node → Tag
  | scalar tag _ => tag
  | sequence tag _ => tag
  | mapping tag _ _ => tag
  | enclosing _ => .map

/-- Whether a node is a key that asks for a merge. -/
def isMergeKey (n : Node) : Bool :=
  n.tag = .merge

/-- The entries of a mapping that are not there to merge others. -/
def ownEntries (written : List (Node × Node)) : List (Node × Node) :=
  written.filter fun e => !e.1.isMergeKey

/-- The entries that a node contributes when it is merged into the collection of the given anchor.  A
collection around this place contributes an entry that says no more than that there is one, and nothing
to itself. -/
def contribution? (into : Option String) : Node → Option (List (Node × Node))
  | mapping _ merged written => merged.map (· ++ ownEntries written)
  | enclosing anchor =>
      if into = some anchor then some [] else some [(scalar .str "", enclosing anchor)]
  | _ => none

/-- The entries that the value of a merge key contributes: those of a mapping, or of the mappings of a
sequence, of which the first count most. -/
def mergedBy? (into : Option String) : Node → Option (List (Node × Node))
  | sequence _ items => (items.mapM (contribution? into)).map fun parts => parts.reverse.flatten
  | n => contribution? into n

/-- The mapping with the entries that are written in it, of the given anchor. -/
def ofEntries (tag : Tag) (anchor : Option String) (written : List (Node × Node)) : Node :=
  let merges := written.filter fun e => e.1.isMergeKey
  mapping tag ((merges.mapM fun e => mergedBy? anchor e.2).map List.flatten) written

end Node

end StringAudit.Yaml
