import ApiAtlas.Filter.Field

/-!
# Endpoints

An endpoint is one operation of a description with everything needed to call
it: its parameters with their schemas, the bodies of its responses and whether
it answers with a stream of records.  Schemas of an endpoint are objects whose
references have been replaced.
-/

namespace ApiAtlas

/-- Where the value of a parameter goes in a request. -/
inductive Location where
  | path
  | query
  | entity
  | filter
deriving DecidableEq, Repr

namespace Location

/-- The name of a location. -/
def name : Location → String
  | .path => "path"
  | .query => "query"
  | .entity => "entity"
  | .filter => "filter"

/-- All locations. -/
def all : List Location := [.path, .query, .entity, .filter]

/-- The location of a name. -/
def ofName? (text : String) : Option Location :=
  all.find? fun location => location.name == text

/-- Every location is found under its name. -/
theorem ofName?_name (location : Location) :
    ofName? location.name = some location := by
  cases location <;> rfl

end Location

/--
A parameter of an endpoint.  A value of the path is always required; a body is
either an entity as a whole or is made from filter expressions, and its name
is its media type.
-/
inductive Parameter where
  | path (name : String) (schema : Fields)
  | query (name : String) (required : Bool) (schema : Fields)
  | entity (name : String) (required : Bool) (schema : Fields)
  | filter (name : String) (required : Bool) (fields : List Filter.Field)
      (schema : Fields)
deriving DecidableEq, Repr

namespace Parameter

/-- The location of a parameter. -/
def location : Parameter → Location
  | .path .. => .path
  | .query .. => .query
  | .entity .. => .entity
  | .filter .. => .filter

/-- The name of a parameter. -/
def name : Parameter → String
  | .path name _ => name
  | .query name _ _ => name
  | .entity name _ _ => name
  | .filter name _ _ _ => name

/-- Whether a parameter is required. -/
def required : Parameter → Bool
  | .path .. => true
  | .query _ required _ => required
  | .entity _ required _ => required
  | .filter _ required _ _ => required

/-- The schema of a parameter. -/
def schema : Parameter → Fields
  | .path _ schema => schema
  | .query _ _ schema => schema
  | .entity _ _ schema => schema
  | .filter _ _ _ schema => schema

/-- Whether a parameter is part of the address. -/
def inAddress : Parameter → Bool
  | .path .. | .query .. => true
  | .entity .. | .filter .. => false

end Parameter

/-- The body of a response. -/
structure ResponseBody where
  schema : Fields
  mediaType : String
  streaming : Bool
deriving DecidableEq, Repr

/-- One operation of a description. -/
structure Endpoint where
  operationId : String
  methodName : String
  title : String
  method : String
  path : String
  parameters : List Parameter
  /-- The statuses in order, each with the body of its response if it has one. -/
  responses : Named (Option ResponseBody)
  streaming : Bool
  tags : List String
deriving DecidableEq, Repr

/-! ## Models as data -/

/-- A filter field as data. -/
def Filter.Field.toDatum (field : Filter.Field) : Datum :=
  .object
    [("path", .str field.path),
      ("type", field.type.elim .null .str),
      ("examples", .list field.examples)]

/-- A parameter as data. -/
def Parameter.toDatum (parameter : Parameter) : Datum :=
  let common : Fields :=
    [("location", .str parameter.location.name),
      ("name", .str parameter.name),
      ("required", .bool parameter.required)]
  let fields : Fields :=
    match parameter with
    | .filter _ _ fields _ =>
      [("fields", .list (fields.map Filter.Field.toDatum))]
    | _ => []
  .object
    (common ++ fields ++ [("schema_obj", Datum.object parameter.schema)])

/-- The body of a response as data. -/
def ResponseBody.toDatum (body : ResponseBody) : Datum :=
  .object
    [("schema_obj", Datum.object body.schema),
      ("media_type", .str body.mediaType),
      ("streaming", .bool body.streaming)]

/-- The body of a response as data, null if there is none. -/
def ResponseBody.optionalDatum (body : Option ResponseBody) : Datum :=
  body.elim .null ResponseBody.toDatum

/-- An endpoint as data, given the form of its responses. -/
def Endpoint.toDatumWith (endpoint : Endpoint) (responses : Datum) : Datum :=
  .object
    [("operation_id", .str endpoint.operationId),
      ("method_name", .str endpoint.methodName),
      ("title", .str endpoint.title),
      ("method", .str endpoint.method),
      ("path", .str endpoint.path),
      ("param_defs", .list (endpoint.parameters.map Parameter.toDatum)),
      ("response_bodies", responses),
      ("streaming", .bool endpoint.streaming),
      ("tags", .list (endpoint.tags.map .str))]

/-- An endpoint as data. -/
def Endpoint.toDatum (endpoint : Endpoint) : Datum :=
  endpoint.toDatumWith
    (.object (endpoint.responses.map fun response =>
      (response.1, ResponseBody.optionalDatum response.2)))

/-- The response body under a status. -/
def Endpoint.response? (endpoint : Endpoint) (status : String) :
    Option ResponseBody :=
  ((endpoint.responses.find? fun response => response.1 == status).map
    (·.2)).join

end ApiAtlas
