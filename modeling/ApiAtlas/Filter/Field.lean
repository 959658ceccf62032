import ApiAtlas.Filter.Operator
import ApiAtlas.Schema.Inline
import ApiAtlas.Validation.Checked

/-!
# Filter fields of a body schema

A field that can be filtered is a leaf of a body schema: an operator wrapper,
that is an object whose only property is named after an operator, or a scalar.
Wrappers are usually one branch beside the null type.

`fieldsOf` walks a schema without references and lists the leaves with their
paths.  A path joins the property names by points; a name is followed by the
array marker once for every array below it.
-/

namespace ApiAtlas.Filter

/-- A leaf of a body schema that can be filtered. -/
structure Field where
  path : String
  /-- The type of the values; unknown if the schema does not say. -/
  type : Option String
  examples : List Datum
deriving DecidableEq, Repr

/-- The types of leaves that are not wrappers. -/
def scalarTypes : List String := ["string", "number", "integer", "boolean"]

/-- The mark of an array in a path. -/
def arrayMarker : String := "[]"

/-! ## Operator wrappers -/

/-- The schema inside an operator wrapper. -/
def wrapped? (node : Datum) : Option Datum :=
  match node with
  | .map entries =>
    match Entries.get? (.str "type") entries,
        Entries.get? (.str "properties") entries with
    | some kind, some (.map [(.str name, inner)]) =>
      if kind.isText "object" && (Operator.ofName? name).isSome then
        some inner
      else none
    | _, _ => none
  | _ => none

/-- Whether a node is an operator wrapper. -/
def isWrapper (node : Datum) : Bool := (wrapped? node).isSome

/-- The stated type and the list of examples of the schema inside a wrapper. -/
structure Leaf where
  type : Datum
  examples : Option (List Datum)
deriving DecidableEq, Repr

/-- The list of examples that a schema states. -/
def listedExamples (node : Datum) : Option (List Datum) :=
  (node.field? "examples").bind Datum.list?

/-- What the schema inside a wrapper says of its values. -/
def Leaf.ofInner (inner : Datum) : Leaf :=
  { type := (inner.field? "type").getD .null
    examples := listedExamples inner }

/-- The branches of a node: those of one composite member, else of the other. -/
def branches (node : Datum) : List Datum :=
  match node.field? "oneOf" with
  | some (.list items) => items
  | _ =>
    match node.field? "anyOf" with
    | some (.list items) => items
    | _ => []

theorem sizeOf_lt_of_mem_branches
    {node branch : Datum} (member : branch ∈ branches node) :
    sizeOf branch < sizeOf node := by
  unfold branches at member
  split at member
  · next items found =>
    have inner := Datum.sizeOf_lt_of_mem_list member
    have outer := Datum.sizeOf_lt_of_field? found
    omega
  · split at member
    · next items found =>
      have inner := Datum.sizeOf_lt_of_mem_list member
      have outer := Datum.sizeOf_lt_of_field? found
      omega
    · simp at member

/-- The leaf that a node is, looked for in its branches first. -/
def leaf? (node : Datum) : Option Leaf :=
  match (branches node).attach.findSome? fun branch => leaf? branch.val with
  | some leaf => some leaf
  | none => (wrapped? node).map Leaf.ofInner
termination_by sizeOf node
decreasing_by exact sizeOf_lt_of_mem_branches branch.property

/-! ## The walk over a schema -/

/-- The examples of a type for which a schema states none. -/
def defaultExamples (type : Datum) : List Datum :=
  match type with
  | .str "string" => [.str "example"]
  | .str "integer" => [.int 0]
  | .str "number" => [.int 0]
  | .str "boolean" => [.bool true]
  | _ => []

/-- The parts of a path joined by points; all of them have to be texts. -/
def joinPath (parts : List Scalar) : Except Fault String := do
  let texts ← parts.mapM fun
    | .str text => Except.ok text
    | _ => misused .unsupported
  return String.intercalate "." texts

/-- A path with the array marker after its last part. -/
def markArray : List Scalar → Except Fault (List Scalar)
  | [] => .ok [.str arrayMarker]
  | [.str text] => .ok [.str (text ++ arrayMarker)]
  | [_] => misused .unsupported
  | part :: rest => do
    let marked ← markArray rest
    return part :: marked

/-- The field of a leaf at a path of the schema `root`. -/
def fieldAt (root : Datum) (parts : List Scalar) (leaf : Leaf) :
    Except Fault Field := do
  let path ← joinPath parts
  if path = "" then throw (.unaddressableField root)
  let examples := leaf.examples.getD (defaultExamples leaf.type)
  let type ←
    ((Checked.readOptionalText leaf.type).inside (.name "type")).mapError
      Fault.invalid
  return ⟨path, type, examples⟩

/-- The first branch that describes an object or an array. -/
def containerBranch? (entries : Entries) : Option Datum :=
  let first := (Entries.get? (.str "oneOf") entries).filter Datum.isTruthy
  let variants := first.or (Entries.get? (.str "anyOf") entries)
  (variants.bind Datum.list?).bind fun items =>
    items.find? fun item =>
      match item.field? "type" with
      | some kind => kind.isText "object" || kind.isText "array"
      | none => false

/-- The fields of all properties of an object, in order. -/
def propertyFields (walk : List Scalar → Datum → Except Fault (List Field))
    (parts : List Scalar) : Entries → Except Fault (List Field)
  | [] => .ok []
  | (name, property) :: rest => do
    let found ← walk (parts ++ [name]) property
    let others ← propertyFields walk parts rest
    return found ++ others

/-- The fields of an object without branches to enter. -/
def fieldsByType (root : Datum)
    (walk : List Scalar → Datum → Except Fault (List Field))
    (parts : List Scalar) (entries : Entries) : Except Fault (List Field) :=
  match Entries.get? (.str "type") entries,
      Entries.get? (.str "properties") entries,
      Entries.get? (.str "items") entries with
  | some (.str "object"), some (.map properties), _ =>
    propertyFields walk parts properties
  | some (.str "array"), _, some (.map items) => do
    let marked ← markArray parts
    walk marked (.map items)
  | some (.str type), _, _ =>
    if type ∈ scalarTypes then do
      let field ←
        fieldAt root parts ⟨.str type, listedExamples (.map entries)⟩
      return [field]
    else .ok []
  | _, _, _ => .ok []

/-- The fields of a node within a budget of nested schemas. -/
def fieldsWithin (root : Datum) :
    Nat → List Scalar → Datum → Except Fault (List Field)
  | 0, parts, .map _ => do
    let path ← joinPath parts
    throw (.nestedTooDeep path)
  | budget + 1, parts, .map entries =>
    match leaf? (.map entries) with
    | some leaf => do
      let field ← fieldAt root parts leaf
      return [field]
    | none =>
      match containerBranch? entries with
      | some branch => fieldsWithin root budget parts branch
      | none => fieldsByType root (fieldsWithin root budget) parts entries
  | _, _, _ => .ok []

/-- The fields of a body schema that can be filtered, in document order. -/
def fieldsOf (schema : Datum) : Except Fault (List Field) :=
  fieldsWithin schema (Schema.walkBudget Schema.depthLimit) [] schema

end ApiAtlas.Filter
