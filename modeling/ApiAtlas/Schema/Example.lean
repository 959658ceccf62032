import ApiAtlas.Schema.Inline

/-!
# Example values of schemas

`examples` gives values of the kind a schema describes.  A stated example
comes first, then a list of stated examples, then the examples of the branches
of a composite schema, and last a value made up from the type.  Branches that
cannot be followed are passed over.

The walk follows references and has the same budget as `inline`.
-/

namespace ApiAtlas.Schema

/-- The first part of an enumeration, which may be given in several forms. -/
def firstPart : Datum → Except Fault Datum
  | .list (item :: _) => .ok item
  | .str text =>
    match text.toList with
    | c :: _ => .ok (.str (String.ofList [c]))
    | [] => misused .missingPosition
  | .bytes (byte :: _) => .ok (.int byte.toNat)
  | .map entries =>
    match Entries.get? (.int 0) entries with
    | some value => .ok value
    | none => misused .missingKey
  | _ => misused .unsupported

/-- The value made up for a type that has no parts. -/
def fallbackValue (entries : Entries) : Except Fault Datum :=
  match Entries.get? (.str "type") entries with
  | some (.str "string") =>
    match Entries.get? (.str "enum") entries with
    | some choices =>
      if choices.isTruthy then firstPart choices else .ok (.str "")
    | none => .ok (.str "")
  | some (.str "number") | some (.str "integer") =>
    match Entries.get? (.str "minimum") entries with
    | some (.int least) => .ok (.int least)
    | some (.float least) => .ok (.float least)
    | _ => .ok (.int 0)
  | some (.str "boolean") => .ok (.bool false)
  | _ => .ok .null

/-- The stated examples of an object, if it states any. -/
def statedExamples? (entries : Entries) : Option (List Datum) :=
  match Entries.get? (.str "example") entries with
  | some value => some [value]
  | none =>
    match Entries.get? (.str "examples") entries with
    | some (.list (first :: rest)) => some (first :: rest)
    | _ => none

/-- The examples of some branches; branches that cannot be followed have none. -/
def branchExamples (walk : Datum → Except Fault (List Datum)) :
    List Datum → Except Fault (List Datum)
  | [] => .ok []
  | branch :: rest =>
    match walk branch with
    | .ok found => (branchExamples walk rest).map (found ++ ·)
    | .error fault =>
      if fault.isOwn then branchExamples walk rest else .error fault

/-- The examples of the first composite member whose branches have any. -/
def compositeExamples (walk : Datum → Except Fault (List Datum))
    (entries : Entries) : List String → Except Fault (List Datum)
  | [] => .ok []
  | member :: rest =>
    match Entries.get? (.str member) entries with
    | some (.list branches) => do
      let found ← branchExamples walk branches
      if found.isEmpty then compositeExamples walk entries rest
      else return found
    | _ => compositeExamples walk entries rest

/-- An object with the first example of every property. -/
def exampleObject (walk : Datum → Except Fault (List Datum)) :
    Entries → Entries → Except Fault Entries
  | object, [] => .ok object
  | object, (name, property) :: rest => do
    match ← walk property with
    | first :: _ => exampleObject walk (Entries.put name first object) rest
    | [] => exampleObject walk object rest

/-- The examples made up from the type of an object. -/
def typeExamples (walk : Datum → Except Fault (List Datum))
    (entries : Entries) : Except Fault (List Datum) :=
  match Entries.get? (.str "type") entries with
  | some (.str "object") =>
    match Entries.get? (.str "properties") entries with
    | some properties =>
      if !properties.isTruthy then .ok [.map []]
      else
        match properties with
        | .map members => do
          let object ← exampleObject walk [] members
          return [.map object]
        | _ => misused .noMembers
    | none => .ok [.map []]
  | some (.str "array") =>
    match Entries.get? (.str "items") entries with
    | some items =>
      if !items.isTruthy then .ok [.list []]
      else do
        match ← walk items with
        | first :: _ => return [.list [first]]
        | [] => misused .missingPosition
    | none => .ok [.list []]
  | _ => do
    let value ← fallbackValue entries
    return [value]

/--
The examples of a node, within a budget of nested schemas and after a chain of
names that have been followed.
-/
def examplesWithin (definitions : Datum) (limit : Int) :
    Nat → List String → Datum → Except Fault (List Datum)
  | 0, chain, _ => .error (.cyclicReference chain (.depthAbove limit))
  | budget + 1, chain, node =>
    match reference? node with
    | some reference => do
      let (name, target) ← followReference definitions chain reference
      examplesWithin definitions limit budget (chain ++ [name]) target
    | none =>
      match node with
      | .map entries =>
        match statedExamples? entries with
        | some stated => .ok stated
        | none => do
          let walk := examplesWithin definitions limit budget chain
          let found ← compositeExamples walk entries compositeMembers
          if found.isEmpty then typeExamples walk entries
          else return found
      | _ => .ok [.null]

/-- Example values of a schema; there is at least one. -/
def examples (node definitions : Datum) : Except Fault (List Datum) :=
  examplesWithin definitions depthLimit (walkBudget depthLimit) [] node

/-- Example values of the definition of a name. -/
def examplesNamed (name : String) (definitions : Datum) :
    Except Fault (List Datum) := do
  let node ← resolve (referenceTo name) definitions
  examples node definitions

/--
A schema with its references replaced and with a list of examples: the given
example, or else the ones of the schema.
-/
def inlineWithExamples (node definitions stated : Datum) :
    Except Fault Entries := do
  let schema ← inline node definitions depthLimit
  let found ←
    if stated = .null then examples schema definitions else pure [stated]
  match schema with
  | .map entries =>
    return Entries.put (.str "examples") (.list found) entries
  | _ => misused .unsupported

end ApiAtlas.Schema
