import ApiAtlas.Yaml.Token

/-!
# Nodes of YAML

The tree that a text is written as.  A node may have an anchor; an alias stands
where a node is used again, which may be inside of that node.  What the aliases
refer to is known only in the graph of the tree.
-/

namespace ApiAtlas.Yaml

/-- The tag of a node, which says what kind of value it stands for. -/
inductive Tag where
  | null
  | bool
  | int
  | float
  | binary
  | timestamp
  | orderedMap
  | pairs
  | set
  | text
  | sequence
  | mapping
  /-- A key whose value is merged into the mapping. -/
  | merge
  /-- A key whose value stands for the mapping. -/
  | value
  | unknown
deriving DecidableEq, Repr

/-- What the names of standard tags start with. -/
def standardLead : String := "tag:yaml.org,2002:"

/-- The tags of the standard and their names. -/
def standardTags : List (String × Tag) :=
  [("null", .null), ("bool", .bool), ("int", .int), ("float", .float),
    ("binary", .binary), ("timestamp", .timestamp), ("omap", .orderedMap),
    ("pairs", .pairs), ("set", .set), ("str", .text), ("seq", .sequence),
    ("map", .mapping), ("merge", .merge), ("value", .value)]

/-- The tag of a name. -/
def Tag.ofName (name : String) : Tag :=
  ((standardTags.find? fun entry => standardLead ++ entry.1 == name).map
    (·.2)).getD .unknown

/-- A node of the tree that a text is written as. -/
inductive Node where
  | scalar (tag : Tag) (text : String)
  | sequence (tag : Tag) (items : List Node)
  | mapping (tag : Tag) (pairs : List (Node × Node))
  /-- A node with a name for its aliases. -/
  | anchored (name : String) (node : Node)
  /-- The node of an anchor. -/
  | alias (name : String)
deriving Repr

namespace Node

/-- A node with an anchor, if it has one. -/
def withAnchor (node : Node) : Option String → Node
  | some name => .anchored name node
  | none => node

mutual

/-- The number of nodes of a tree; an alias is none of its own. -/
def count : Node → Nat
  | .scalar _ _ => 1
  | .sequence _ items => countItems items + 1
  | .mapping _ pairs => countPairs pairs + 1
  | .anchored _ node => count node
  | .alias _ => 0

/-- The number of nodes of the items of a sequence. -/
def countItems : List Node → Nat
  | [] => 0
  | item :: rest => count item + countItems rest

/-- The number of nodes of the pairs of a mapping. -/
def countPairs : List (Node × Node) → Nat
  | [] => 0
  | (key, value) :: rest => count key + count value + countPairs rest

end

end Node

end ApiAtlas.Yaml
