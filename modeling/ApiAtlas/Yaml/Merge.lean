import ApiAtlas.Yaml.Graph

/-!
# Merge keys

A merge key stands for the pairs of the mappings that it names, which come in
front of the other pairs.  These mappings are merged first, and where one of
them is being merged already it gives the pairs that it has by then.  A merge
key that names anything but mappings spoils its mapping.

Merging changes the graph: a mapping that is used in several places is merged
in all of them, and the key that stands for its mapping becomes a text.
-/

namespace ApiAtlas.Yaml.Graph

/-- Whether a pair has a merge key. -/
def isMerge (graph : Graph) (pair : Nat × Nat) : Bool :=
  graph.tag pair.1 = .merge

/-- Whether a pair has the key that stands for its mapping. -/
def isValue (graph : Graph) (pair : Nat × Nat) : Bool :=
  graph.tag pair.1 = .value

/-- The number of merge keys in all mappings. -/
def mergeCount (graph : Graph) : Nat :=
  graph.foldl
    (fun count vertex =>
      match vertex.content with
      | .mapping pairs => count + pairs.countP graph.isMerge
      | _ => count)
    0

/-- The graph with plain keys in some pairs. -/
def plainKeys (pairs : List (Nat × Nat)) (graph : Graph) : Graph :=
  pairs.foldl
    (fun graph pair =>
      if graph.isValue pair then graph.setTag pair.1 .text else graph)
    graph

/-- The graph with some pairs in front of those of a mapping. -/
def prepend (number : Nat) (merged : List (Nat × Nat)) (graph : Graph) :
    Graph :=
  let own := (graph.pairs? number).getD []
  let graph := graph.plainKeys own
  if merged.isEmpty then graph else graph.setPairs number (merged ++ own)

/--
The graph with the merge keys of a mapping resolved, after some pairs that
earlier ones gave; none if a merge key names no mappings.  Every step takes a
merge key away, so there are no more steps than merge keys.
-/
def mergeFrom : Nat → Nat → List (Nat × Nat) → Graph → Option Graph
  | 0, _, _, _ => none
  | steps + 1, number, merged, graph => do
    let pairs ← graph.pairs? number
    match pairs.find? graph.isMerge with
    | none => return graph.prepend number merged
    | some (_, source) =>
      let graph :=
        graph.setPairs number (pairs.eraseP graph.isMerge)
      match graph.content source with
      | .scalar _ => none
      | .mapping _ =>
        let graph ← mergeFrom steps source [] graph
        mergeFrom steps number (merged ++ (← graph.pairs? source)) graph
      | .sequence items =>
        let (graph, sources) ← items.foldlM
          (fun (found : Graph × List (List (Nat × Nat))) item => do
            let graph ← mergeFrom steps item [] found.1
            return (graph, (← graph.pairs? item) :: found.2))
          (graph, [])
        mergeFrom steps number (merged ++ sources.flatten) graph

/-- The graph with the merge keys of a mapping resolved. -/
def merge (number : Nat) (graph : Graph) : Option Graph := do
  let pairs ← graph.pairs? number
  if pairs.any fun pair => graph.isMerge pair || graph.isValue pair then
    mergeFrom (graph.mergeCount + 1) number [] graph
  else return graph

end ApiAtlas.Yaml.Graph
