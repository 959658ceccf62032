import ApiAtlas.Data.Datum
import ApiAtlas.Yaml.Merge
import ApiAtlas.Yaml.ScalarValue

/-!
# Forms of nodes

A form is the value of a node, with its parts given by their numbers.  Forms
are made from the root on: that of a scalar at once, that of a container
without its parts first.  The containers get their parts in the order in which
they were begun.  So of several nodes that their tags do not fit, the one that
is nearest to the root counts, and of those at one distance the first.
-/

namespace ApiAtlas.Yaml

/-- A scalar as a key. -/
structure Key where
  value : Scalar
  /--
  The number of the node that the scalar is; none for the word for no number,
  which is one value wherever it stands.
  -/
  origin : Option Nat
deriving DecidableEq, Repr

/--
Whether two keys are the same.  What is no number equals nothing, but as a key
it is found again where it comes from the same node.
-/
def Key.same (one other : Key) : Bool :=
  one == other || one.value.same other.value

/-- Keys with the numbers of their values, in order. -/
abbrev Members := List (Key × Nat)

/-- The members with a value put under a key, as into entries. -/
def Members.put (key : Key) (value : Nat) : Members → Members
  | [] => [(key, value)]
  | member :: rest =>
    if member.1.same key then (member.1, value) :: rest
    else member :: put key value rest

/-- The value of a node, with its parts by number. -/
inductive Form where
  | scalar (key : Key)
  | list (items : List Nat)
  | pairs (items : List (Nat × Nat))
  | set (keys : List Key)
  | map (members : Members)

/-- Forms by the numbers of their nodes. -/
abbrev Forms := Array (Option Form)

/-- The form of a container that has no parts yet, if a tag is of one. -/
def Form.begun? : Tag → Option Form
  | .sequence => some (.list [])
  | .orderedMap | .pairs => some (.pairs [])
  | .set => some (.set [])
  | .mapping => some (.map [])
  | _ => none

/-! ## Scalars of graphs -/

namespace Graph

/--
The text that a node stands for where a scalar belongs, within a number of
steps.  A mapping stands for the value of a key of its own.
-/
def textWithin? (graph : Graph) : Nat → Nat → Option String
  | 0, _ => none
  | steps + 1, number =>
    match graph.content number with
    | .scalar text => some text
    | .sequence _ => none
    | .mapping pairs => do
      let (_, value) ← pairs.find? graph.isValue
      graph.textWithin? steps value

/-- The text that a node stands for where a scalar belongs. -/
def text? (graph : Graph) (number : Nat) : Option String :=
  graph.textWithin? (graph.size + 1) number

/-- The scalar that a node is. -/
def key (graph : Graph) (number : Nat) : Except Rejection Key := do
  let tag := graph.tag number
  match graph.text? number with
  | none => throw .malformed
  | some text =>
    if tag = .timestamp && (graph.pairs? number).isSome then
      throw (.fault (.misuse .unsupported))
    let value ← scalarValue tag text
    let isShared := tag = .float && isNoNumber text
    return ⟨value, if isShared then none else some number⟩

end Graph

/-! ## Making forms -/

/-- What is known in the midst of making forms. -/
structure Making where
  graph : Graph
  forms : Forms
  /-- The containers that wait for their parts, the last one first. -/
  waiting : List Nat

/-- A step of making forms. -/
abbrev Make (α : Type) := StateT Making (Except Rejection) α

namespace Make

/-- Sets the form of a node. -/
def setForm (number : Nat) (form : Form) : Make Unit :=
  modify fun state =>
    { state with forms := state.forms.setIfInBounds number (some form) }

/-- Lets a container wait for its parts. -/
def await (number : Nat) : Make Unit :=
  modify fun state => { state with waiting := number :: state.waiting }

/-- The form of a node, as far as it is made; it is begun if it is not. -/
def formOf (number : Nat) : Make Form := do
  match (← get).forms[number]?.join with
  | some form => return form
  | none =>
    match Form.begun? ((← get).graph.tag number) with
    | some form =>
      setForm number form
      await number
      return form
    | none =>
      let form := Form.scalar (← (← get).graph.key number)
      setForm number form
      return form

/-- The key that a node is, which has to be a scalar. -/
def keyOf (number : Nat) : Make Key := do
  match ← formOf number with
  | .scalar key => return key
  | _ => throw Rejection.malformed

/-- The items of a sequence, which are begun. -/
def itemsOf (number : Nat) : Make (List Nat) := do
  match (← get).graph.content number with
  | .sequence items =>
    items.forM fun item => do
      let _ ← formOf item
    return items
  | _ => throw Rejection.malformed

/-- The members of a mapping after merging, which are begun. -/
def membersOf (number : Nat) : Make Members := do
  match (← get).graph.merge number with
  | none => throw Rejection.malformed
  | some graph =>
    modify fun state => { state with graph }
    ((graph.pairs? number).getD []).foldlM
      (fun members pair => do
        let key ← keyOf pair.1
        let _ ← formOf pair.2
        return Members.put key pair.2 members)
      []

/-- The only pair of a mapping, which is begun. -/
def pairOf (number : Nat) : Make (Nat × Nat) := do
  match (← get).graph.pairs? number with
  | some [(key, value)] =>
    let _ ← formOf key
    let _ ← formOf value
    return (key, value)
  | _ => throw Rejection.malformed

/-- The pairs of a sequence of mappings with one pair each. -/
def pairsOf (number : Nat) : Make (List (Nat × Nat)) := do
  match (← get).graph.content number with
  | .sequence items => items.mapM pairOf
  | _ => throw Rejection.malformed

/-- Gives a container its parts. -/
def complete (number : Nat) : Make Unit := do
  match (← get).graph.tag number with
  | .sequence => setForm number (.list (← itemsOf number))
  | .orderedMap | .pairs => setForm number (.pairs (← pairsOf number))
  | .set => setForm number (.set ((← membersOf number).map (·.1)))
  | .mapping => setForm number (.map (← membersOf number))
  | _ => return ()

/-- Gives the containers their parts until none waits, within some rounds. -/
def completeAll : Nat → Make Unit
  | 0 => return ()
  | rounds + 1 => do
    let waiting := (← get).waiting
    if waiting.isEmpty then return ()
    modify fun state => { state with waiting := [] }
    waiting.reverse.forM complete
    completeAll rounds

end Make

/--
The forms of the nodes that the value of a graph consists of.  Every round but
the last one completes a node, so there are no more rounds than nodes.
-/
def RootedGraph.forms (rooted : RootedGraph) : Except Rejection Forms := do
  let count := rooted.graph.size
  let make : Make Unit := do
    let _ ← Make.formOf rooted.root
    Make.completeAll (count + 1)
  let (_, state) ← make.run ⟨rooted.graph, Array.replicate count none, []⟩
  return state.forms

end ApiAtlas.Yaml
