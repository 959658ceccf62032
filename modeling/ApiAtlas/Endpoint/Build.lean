import ApiAtlas.Endpoint.Content
import ApiAtlas.Endpoint.Model
import ApiAtlas.Endpoint.Naming

/-!
# Endpoints from operations

`Operation.endpoint` turns an operation of a description into an endpoint.
Parameters shared by a path come first and give way to the operation's own
ones of the same name and place.  Only the method `POST` may have a request
body; the body is made from filter expressions when the operation answers with
a stream, and is an entity otherwise.
-/

namespace ApiAtlas

/-- An operation as it stands in a description. -/
structure Operation where
  path : Scalar
  method : Scalar
  content : Datum
  /-- The parameters shared by all operations of the path. -/
  shared : Datum

namespace Operation

/-- The only method that may have a request body. -/
def entityMethod : String := "POST"

/-- The method of an operation. -/
def httpMethod : Scalar → Except Fault String
  | .str text => Naming.method text
  | .bytes content => .error (.unsupportedMethod (Text.quotedBytes content))
  | _ => misused .noMembers

/-- The name of an operation that states none. -/
def derivedId (method : String) : Scalar → Except Fault String
  | .str path => .ok (Naming.derivedId method path)
  | .bytes _ => misused .unsupported
  | _ => misused .noMembers

/-- The name of an operation: the stated one, or else one made from its path. -/
def operationId (content : Datum) (method : String) (path : Scalar) :
    Except Fault Datum := do
  let stated ← content.member? "operationId"
  match stated.filter Datum.isTruthy with
  | some stated => return stated
  | none => return .str (← derivedId method path)

/-! ## Parameters -/

/-- What identifies a parameter: the stated name and place. -/
structure ParameterKey where
  name : Scalar
  place : Scalar

/-- Whether two parameters are the same. -/
def ParameterKey.same (one other : ParameterKey) : Bool :=
  one.name.same other.name && one.place.same other.place

/-- The parameters put together so far, in order. -/
abbrev Merged := List (ParameterKey × Entries)

/-- The parameters with one put among them; the same one keeps its place. -/
def putParameter (key : ParameterKey) (parameter : Entries) :
    Merged → Merged
  | [] => [(key, parameter)]
  | first :: rest =>
    if first.1.same key then (first.1, parameter) :: rest
    else first :: putParameter key parameter rest

/-- The parameters with a stated one put among them. -/
def mergeParameter (merged : Merged) (parameter : Datum) :
    Except Fault Merged := do
  let entries ← parameter.entries
  let name ← ((Entries.get? (.str "name") entries).getD .null).key
  let place ← ((Entries.get? (.str "in") entries).getD .null).key
  return putParameter ⟨name, place⟩ entries merged

/-- The shared and the own parameters; an own one replaces the same shared one. -/
def mergeParameters (shared own : Datum) : Except Fault (List Entries) := do
  let sharedParts ← if shared.isTruthy then shared.parts else pure []
  let merged ← sharedParts.foldlM mergeParameter []
  let ownParts ← own.parts
  let merged ← ownParts.foldlM mergeParameter merged
  return merged.map (·.2)

/-- The members that every model of a parameter has. -/
def checkedParameter (name : Datum) (schema : Entries) :
    Checked (String × Fields) :=
  Checked.both ((Checked.readText name).inside (.name "name"))
    ((readObject (.map schema)).inside (.name "schema_obj"))

/-- The model of a parameter of the path or the query. -/
def addressParameter (definitions : Datum) (entries : Entries) :
    Except Fault Parameter := do
  let member (name : String) := Entries.get? (.str name) entries
  let some name := member "name" | misused .missingKey
  let location := (member "in").getD (.str Location.query.name)
  let schema ←
    Schema.inlineWithExamples ((member "schema").getD (.map []))
      definitions ((member "example").getD .null)
  if location.isText Location.path.name then
    let (name, schema) ← (checkedParameter name schema).outcome
    return .path name schema
  else if location.isText Location.query.name then
    let required := ((member "required").getD .null).isTruthy
    let (name, schema) ← (checkedParameter name schema).outcome
    return .query name required schema
  else throw (.unsupportedLocation name.plain location.plain)

/-- The model of a request body. -/
def bodyParameter (definitions body : Datum) (querying : Bool)
    (operation : String) : Except Fault Parameter := do
  let content ← body.member? "content"
  let some content := content.filter Datum.isTruthy
    | throw (.emptyRequestBody operation)
  let typed ← Content.read definitions content
  let required := ((← body.member? "required").getD .null).isTruthy
  if querying then
    let fields ← Filter.fieldsOf (.map typed.schema)
    let (name, schema) ←
      (checkedParameter (.str typed.mediaType) typed.schema).outcome
    return .filter name required fields schema
  else
    let (name, schema) ←
      (checkedParameter (.str typed.mediaType) typed.schema).outcome
    return .entity name required schema

/-! ## Responses -/

/-- The body of a response with content. -/
def responseBody (definitions content : Datum) (operation status : String) :
    Except Fault ResponseBody := do
  if !content.isTruthy then throw (.emptyResponse operation status)
  let typed ← Content.read definitions content
  let schema ←
    ((readObject (.map typed.schema)).inside (.name "schema_obj")).outcome
  return ⟨schema, typed.mediaType,
    Content.mediaTypeEndsIn "ndjson" typed.mediaType⟩

/-- The body of a response, if it has one. -/
def optionalBody (definitions response : Datum) (operation status : String) :
    Except Fault (Option ResponseBody) := do
  let content ←
    if response.isTruthy then response.held? "content" else pure none
  match content with
  | some content =>
    return some (← responseBody definitions content operation status)
  | none => return none

/-- The bodies of the responses under their statuses. -/
def responseBodies (definitions : Datum) (operation : String) :
    Named (Option ResponseBody) → Entries →
      Except Fault (Named (Option ResponseBody))
  | found, [] => .ok found
  | found, (status, response) :: rest => do
    let status := status.plain
    let body ← optionalBody definitions response operation status
    responseBodies definitions operation (Named.put status body found) rest

/-- Whether the response of status 200 is a stream. -/
def streams (responses : Named (Option ResponseBody)) : Bool :=
  match responses.find? fun response => response.1 == "200" with
  | some (_, some body) => body.streaming
  | _ => false

/-! ## Endpoints -/

/-- The value of a member if it counts as present. -/
def presentMember? (name : String) (entries : Entries) : Option Datum :=
  (Entries.get? (.str name) entries).filter Datum.isTruthy

/-- The title of an operation: its summary, description or name. -/
def title (entries : Entries) (operationId : Datum) : Datum :=
  ((presentMember? "summary" entries).or
    (presentMember? "description" entries)).getD operationId

/-- The endpoint of an operation. -/
def endpoint (definitions : Datum) (operation : Operation) :
    Except Fault Endpoint := do
  let method ← httpMethod operation.method
  let operationId ←
    operationId operation.content method operation.path
  let entries ← operation.content.entries
  let own := (Entries.get? (.str "parameters") entries).getD (.list [])
  let stated ← mergeParameters operation.shared own
  let address ← stated.mapM (addressParameter definitions)
  let idText := operationId.plain
  let stated := (Entries.get? (.str "responses") entries).getD .null
  let responses ←
    responseBodies definitions idText [] (← stated.orEmptyMap.entries)
  let streaming := streams responses
  let body ←
    match presentMember? "requestBody" entries with
    | some body =>
      if method ≠ entityMethod then
        throw (.bodyNotAllowed idText method)
      else
        let parameter ← bodyParameter definitions body streaming idText
        pure [parameter]
    | none => pure []
  let .str idName := operationId | misused .unsupported
  let tags := (Entries.get? (.str "tags") entries).getD (.list [])
  let texts :=
    Checked.both
      ((Checked.readText (title entries operationId)).inside (.name "title"))
      (Checked.both
        ((Checked.readText (.scalar operation.path)).inside (.name "path"))
        ((Checked.readList Checked.readText tags).inside (.name "tags")))
  let (title, path, tags) ← texts.outcome
  return {
    operationId := idName
    methodName := Naming.camel idName
    title, method, path
    parameters := address ++ body
    responses, streaming, tags }

end Operation

end ApiAtlas
