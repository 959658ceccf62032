import ApiAtlas.Yaml.Node

/-!
# Graphs of nodes

The nodes of a text by number.  The parts of a node are given by their numbers,
so that a node with aliases is one node in several places and may be a part of
itself.

A node has a greater number than its parts.  Only where an alias stands inside
of the node that it names does a part have the number of a node around it.
-/

namespace ApiAtlas.Yaml

/-- What a node of a graph holds. -/
inductive Content where
  | scalar (text : String)
  | sequence (items : List Nat)
  | mapping (pairs : List (Nat × Nat))
deriving DecidableEq, Repr, Inhabited

/-- A node of a graph. -/
structure Vertex where
  tag : Tag
  content : Content
deriving DecidableEq, Repr

/-- Nodes by number. -/
abbrev Graph := Array Vertex

/-! ## Parts of graphs -/

namespace Graph

/-- The tag of a node. -/
def tag (graph : Graph) (number : Nat) : Tag :=
  (graph[number]?.map Vertex.tag).getD .unknown

/-- What a node holds. -/
def content (graph : Graph) (number : Nat) : Content :=
  (graph[number]?.map Vertex.content).getD (.scalar "")

/-- The pairs of a mapping. -/
def pairs? (graph : Graph) (number : Nat) : Option (List (Nat × Nat)) :=
  match graph.content number with
  | .mapping pairs => some pairs
  | _ => none

/-- The graph with other pairs in a mapping. -/
def setPairs (number : Nat) (pairs : List (Nat × Nat)) (graph : Graph) :
    Graph :=
  graph.modify number fun vertex => { vertex with content := .mapping pairs }

/-- The graph with another tag of a node. -/
def setTag (number : Nat) (tag : Tag) (graph : Graph) : Graph :=
  graph.modify number fun vertex => { vertex with tag }

end Graph

/-! ## Graphs of trees -/

/-- What is known in the midst of numbering the nodes of a tree. -/
structure Numbering where
  graph : Graph
  /-- The numbers of the nodes with anchors. -/
  anchors : List (String × Nat)

namespace Numbering

/-- Adds a node and gives its number. -/
def add (tag : Tag) (content : Content) : StateM Numbering Nat :=
  modifyGet fun state =>
    (state.graph.size,
      { state with graph := state.graph.push ⟨tag, content⟩ })

/-- The number of the node with an anchor. -/
def numberOf (name : String) : StateM Numbering Nat := do
  let state ← get
  let found := state.anchors.find? fun anchor => anchor.1 == name
  return (found.map (·.2)).getD state.graph.size

/--
Notes the number that a node will have: as many nodes as it counts are added
with it, and it is the last of them.
-/
def noteAnchor (name : String) (node : Node) : StateM Numbering Unit :=
  modify fun state =>
    let number := state.graph.size + node.count - 1
    { state with anchors := (name, number) :: state.anchors }

mutual

/-- Adds the nodes of a tree and gives the number of its root. -/
def addNode : Node → StateM Numbering Nat
  | .scalar tag text => add tag (.scalar text)
  | .sequence tag items => do add tag (.sequence (← addItems items))
  | .mapping tag pairs => do add tag (.mapping (← addPairs pairs))
  | .anchored name node => do
    noteAnchor name node
    addNode node
  | .alias name => numberOf name

/-- Adds the items of a sequence. -/
def addItems : List Node → StateM Numbering (List Nat)
  | [] => return []
  | item :: rest => do
    let number ← addNode item
    return number :: (← addItems rest)

/-- Adds the pairs of a mapping. -/
def addPairs : List (Node × Node) → StateM Numbering (List (Nat × Nat))
  | [] => return []
  | (key, value) :: rest => do
    let key ← addNode key
    let value ← addNode value
    return (key, value) :: (← addPairs rest)

end

end Numbering

/-- A graph and the number of the node that stands for all. -/
structure RootedGraph where
  graph : Graph
  root : Nat

/-- The graph of a tree. -/
def Node.toGraph (node : Node) : RootedGraph :=
  let (root, state) := (Numbering.addNode node).run ⟨#[], []⟩
  ⟨state.graph, root⟩

end ApiAtlas.Yaml
