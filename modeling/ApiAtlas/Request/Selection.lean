import ApiAtlas.Filter.Expression
import ApiAtlas.Request.Options

/-!
# Requests from a user's input

The inputs of an endpoint are its parameters in the address and the fields
that can be filtered.  A user gives values by name and selects filters by
path; a path that is no field of the endpoint is taken without a type.
-/

namespace ApiAtlas

/-- The inputs that an endpoint takes from a user. -/
structure EndpointInputs where
  parameters : List Parameter
  fields : List Filter.Field
deriving DecidableEq, Repr

/-- The fields of a parameter that can be filtered. -/
def Parameter.filterFields : Parameter → List Filter.Field
  | .filter _ _ fields _ => fields
  | _ => []

/-- The inputs of an endpoint. -/
def Endpoint.inputs (endpoint : Endpoint) : EndpointInputs :=
  { parameters := endpoint.parameters.filter (·.inAddress)
    fields := endpoint.parameters.flatMap Parameter.filterFields }

/-- The names of the inputs that have to be given. -/
def EndpointInputs.required (inputs : EndpointInputs) : List String :=
  (inputs.parameters.filter (·.required)).map (·.name)

namespace Request

/-- A filter as a user selects it. -/
structure Selection where
  path : Datum
  operator : Datum
  raw : Datum
deriving DecidableEq, Repr

/-- The last field at a path. -/
def fieldAt? (path : String) (fields : List Filter.Field) :
    Option Filter.Field :=
  fields.reverse.find? fun field => field.path == path

/-- The field that a selection is for, untyped if the endpoint has none there. -/
def selectedField (fields : List Filter.Field) (path : Datum) :
    Except Fault Filter.Field := do
  match ← path.key with
  | .str path =>
    return (fieldAt? path fields).getD ⟨path, none, []⟩
  | _ => throw (.invalid [⟨.notText, [.name "path"]⟩])

/-- The filter expression of a selection. -/
def Selection.expression (fields : List Filter.Field)
    (selection : Selection) : Except Fault Filter.Expression := do
  let field ← selectedField fields selection.path
  Filter.select field selection.operator selection.raw

/-- The value given for a parameter. -/
def givenValue? (values : Entries) (parameter : Parameter) :
    Option Placed :=
  (Entries.get? (.str parameter.name) values).map fun value =>
    ⟨parameter.location, .str parameter.name, value⟩

/-- The options for given values and selections. -/
def build (endpoint : Endpoint) (values : Entries)
    (selections : List Selection) : Except Fault Options := do
  let inputs := endpoint.inputs
  let expressions ← selections.mapM (Selection.expression inputs.fields)
  let body : Datum :=
    if expressions.isEmpty then .null
    else .map (Filter.bodyOf expressions)
  return Options.build endpoint.streaming
    (inputs.parameters.filterMap (givenValue? values)) body

end Request

end ApiAtlas
