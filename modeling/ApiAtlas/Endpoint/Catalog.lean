import ApiAtlas.Endpoint.Build

/-!
# The catalog of a description

All endpoints of a description, each under its operation id.  An operation
that repeats an id takes the place of the earlier one and is noticed; a
description with a faulty operation has no catalog, but the notices up to the
fault remain.
-/

namespace ApiAtlas

/-- Endpoints under their operation ids, in order of first occurrence. -/
abbrev Catalog := Named Endpoint

/-- A notice that an operation has taken the place of an earlier one. -/
structure Notice where
  operationId : String
  method : String
  path : String
deriving DecidableEq, Repr

/-- The wording of a notice. -/
def Notice.message (notice : Notice) : String :=
  "Duplicate operationId " ++ notice.operationId ++ " (" ++ notice.method ++
    " " ++ notice.path ++ "), keeping the last definition"

namespace Catalog

/-- The endpoint of an operation id. -/
def find? (operationId : String) (catalog : Catalog) : Option Endpoint :=
  (List.find? (fun entry => entry.1 == operationId) catalog).map (·.2)

/-- The catalog with an endpoint put under its operation id. -/
def put (endpoint : Endpoint) (catalog : Catalog) : Catalog :=
  Named.put endpoint.operationId endpoint catalog

/-! ## The operations of a description -/

/-- The members of a path item that are not operations. -/
def itemMembers : List String :=
  ["summary", "description", "servers", "parameters", "$ref"]

/-- Whether a key of a path item stands for an operation. -/
def isOperationKey : Scalar → Bool
  | .str text => !itemMembers.contains text
  | _ => true

/-- The operations of a path item, in order. -/
def itemOperations (path : Scalar) (item : Datum) :
    Except Fault (List Operation) := do
  let entries ← item.entries
  let shared := (Entries.get? (.str "parameters") entries).getD (.list [])
  return (entries.filter fun entry => isOperationKey entry.1).map fun entry =>
    ⟨path, entry.1, entry.2, shared⟩

/-- The operations of a path, or the fault of its path item. -/
def pathOperations (path : Scalar) (item : Datum) :
    List (Except Fault Operation) :=
  if item.isTruthy then
    match itemOperations path item with
    | .ok operations => operations.map .ok
    | .error fault => [.error fault]
  else []

/-- The operations of all paths, in order, with the faults among them. -/
def operations (paths : Datum) : List (Except Fault Operation) :=
  match paths.orEmptyMap.entries with
  | .ok entries =>
    entries.flatMap fun entry => pathOperations entry.1 entry.2
  | .error fault => [.error fault]

/-! ## Building -/

/-- What comes of building a catalog. -/
structure Built where
  notices : List Notice
  outcome : Except Fault Catalog

/-- The same outcome after an earlier notice. -/
def Built.after (notice : Notice) (built : Built) : Built :=
  { built with notices := notice :: built.notices }

/-- Whether an operation id is in a catalog. -/
def has (operationId : String) (catalog : Catalog) : Bool :=
  (find? operationId catalog).isSome

/-- Puts the endpoints of operations into a catalog, up to the first fault. -/
def addAll (definitions : Datum) :
    Catalog → List (Except Fault Operation) → Built
  | catalog, [] => ⟨[], .ok catalog⟩
  | catalog, operation :: rest =>
    match operation.bind (Operation.endpoint definitions) with
    | .error fault => ⟨[], .error fault⟩
    | .ok endpoint =>
      let later := addAll definitions (put endpoint catalog) rest
      if has endpoint.operationId catalog then
        later.after ⟨endpoint.operationId, endpoint.method, endpoint.path⟩
      else later

/-- The catalog of the paths of a description. -/
def build (paths definitions : Datum) : Built :=
  addAll definitions [] (operations paths)

end Catalog

end ApiAtlas
