/-!
# Tags

A tag tells the type of a node.  The tags of the language itself all begin with the same text; any other
tag names no type that is known here.
-/

namespace StringAudit.Yaml

/-- The types of nodes. -/
inductive Tag
  | null
  | bool
  | int
  | float
  | binary
  | timestamp
  | str
  | seq
  | map
  | set
  /-- A sequence of single pairs without repetitions. -/
  | orderedMap
  /-- A sequence of single pairs. -/
  | pairs
  /-- A key whose value is merged into the mapping. -/
  | merge
  /-- A key whose value stands for the mapping as a whole. -/
  | value
  /-- No type that is known. -/
  | other
  deriving DecidableEq, Repr

namespace Tag

/-- The beginning of the tags of the language. -/
def beginning : String :=
  "tag:yaml.org,2002:"

/-- The rest of each tag of the language. -/
def names : List (String × Tag) :=
  [("null", .null), ("bool", .bool), ("int", .int), ("float", .float), ("binary", .binary),
    ("timestamp", .timestamp), ("str", .str), ("seq", .seq), ("map", .map), ("set", .set),
    ("omap", .orderedMap), ("pairs", .pairs), ("merge", .merge), ("value", .value)]

/-- The type that a tag names. -/
def ofText (tag : String) : Tag :=
  ((names.find? fun n => beginning ++ n.1 = tag).map (·.2)).getD .other

end Tag

end StringAudit.Yaml
