import ApiAtlas.Endpoint.Build
import ApiAtlas.Proofs.Data.Access
import ApiAtlas.Proofs.Data.Json
import ApiAtlas.Proofs.Data.Named
import ApiAtlas.Proofs.Validation.Checked

/-!
# What endpoints are made from

An operation becomes an endpoint only if each of its parts becomes a part of
the endpoint.  Each function that builds a part has a relation here which says
what the part has of the description once the function has succeeded, and
`Operation.isBuilt_of_endpoint` puts them together.
-/

namespace ApiAtlas

/-- The schema that an object states, the empty one if it states none. -/
def statedSchema (entries : Entries) : Datum :=
  (Entries.get? (.str "schema") entries).getD (.map [])

/-- What becomes of the schema of which nothing is stated. -/
def unstatedSchema : Fields := [("examples", .list [.null])]

/-! ## Content -/

/-- A schema with its examples, read as an object. -/
def Schema.IsRead
    (definitions : Datum) (entries : Entries) (schema : Fields) : Prop :=
  ∃ made,
    inlineWithExamples (statedSchema entries) definitions
        (entries.held "example") =
      .ok made ∧
      readObject (.map made) = .ok schema

/-- Content whose media type and schema are used. -/
def Content.IsRead
    (definitions content : Datum) (mediaType : String) (schema : Fields) :
    Prop :=
  ∃ types entries : Entries,
    content = .map types ∧
      Content.mediaType types = .ok mediaType ∧
      (types.held mediaType).orEmptyMap = .map entries ∧
      Schema.IsRead definitions entries schema

theorem Content.exists_of_read
    {definitions content : Datum} {typed : Content.Typed}
    (success : Content.read definitions content = .ok typed) :
    ∃ types entries : Entries,
      content = .map types ∧
        Content.mediaType types = .ok typed.mediaType ∧
        (types.held typed.mediaType).orEmptyMap = .map entries ∧
        Schema.inlineWithExamples (statedSchema entries) definitions
            (entries.held "example") =
          .ok typed.schema := by
  cases content with
  | map types =>
    rw [Content.read] at success
    rcases exists_of_bind_eq_ok success with ⟨mediaType, used, success⟩
    rcases exists_of_bind_eq_ok success with ⟨found, looked, success⟩
    rcases exists_of_bind_eq_ok success with ⟨stated, annotation, success⟩
    rcases exists_of_bind_eq_ok success with ⟨made, annotated, same⟩
    cases same
    rcases Datum.exists_of_member? looked with ⟨entries, isMap, rfl⟩
    rw [isMap] at annotation
    cases annotation
    exact ⟨types, entries, rfl, used, isMap, annotated⟩
  | _ => cases success

theorem Content.isRead_of_read
    {definitions content : Datum} {typed : Content.Typed} {schema : Fields}
    (success : Content.read definitions content = .ok typed)
    (read : readObject (.map typed.schema) = .ok schema) :
    IsRead definitions content typed.mediaType schema := by
  rcases exists_of_read success with
    ⟨types, entries, isMap, used, isEntry, annotated⟩
  exact ⟨types, entries, isMap, used, isEntry, _, annotated, read⟩

/-- The schema that is used stands in the content. -/
theorem Datum.EachMap.statedSchema_of_held
    {holds : Entries → Prop} {types entries : Entries} {mediaType : String}
    (eachMap : EachMap holds (.map types)) (empty : holds [])
    (isEntry : (types.held mediaType).orEmptyMap = .map entries) :
    (statedSchema entries).EachMap holds := by
  have inEntry : EachMap holds (.map entries) := by
    rw [← isEntry]
    exact (eachMap.of_getD _ (.scalar .null)).orEmptyMap empty
  exact inEntry.of_getD _ (.map empty (List.forall_mem_nil _))

namespace Operation

theorem eq_ok_of_checkedParameter
    {name : Datum} {entries : Entries} {checked : String × Fields}
    (success : (checkedParameter name entries).outcome = .ok checked) :
    Checked.readText name = .ok checked.1 ∧
      readObject (.map entries) = .ok checked.2 := by
  rw [Checked.outcome_eq_ok_iff, checkedParameter, Checked.both_eq_ok_iff,
    Checked.inside_eq_ok_iff, Checked.inside_eq_ok_iff] at success
  exact success

/-! ## Parameters -/

/-- The place that a parameter states, the query if it states none. -/
def statedPlace (entries : Entries) : Datum :=
  (Entries.get? (.str "in") entries).getD (.str Location.query.name)

/-- A parameter of the path or the query as it has been stated. -/
structure IsAddressParameter
    (definitions : Datum)
    (entries : Entries)
    (parameter : Parameter) : Prop where
  inAddress : parameter.inAddress = true
  name : Checked.readText (entries.held "name") = .ok parameter.name
  place : statedPlace entries = .str parameter.location.name
  required :
    parameter.required =
      (parameter.location == .path || (entries.held "required").isTruthy)
  schema : Schema.IsRead definitions entries parameter.schema

theorem isAddressParameter_of_addressParameter
    {definitions : Datum} {entries : Entries} {parameter : Parameter}
    (success : addressParameter definitions entries = .ok parameter) :
    IsAddressParameter definitions entries parameter := by
  rw [addressParameter] at success
  dsimp only at success
  split at success
  · next name named =>
    rcases exists_of_bind_eq_ok success with ⟨made, annotated, success⟩
    have held : entries.held "name" = name := Entries.held_of_get? named
    split at success
    · next isPath =>
      rcases exists_of_bind_eq_ok success with ⟨checked, passed, same⟩
      cases same
      rcases eq_ok_of_checkedParameter passed with ⟨readName, readSchema⟩
      exact
        { inAddress := rfl
          name := held ▸ readName
          place := Datum.eq_str_of_isText isPath
          required := rfl
          schema := ⟨made, annotated, readSchema⟩ }
    · split at success
      · next isQuery =>
        rcases exists_of_bind_eq_ok success with ⟨checked, passed, same⟩
        cases same
        rcases eq_ok_of_checkedParameter passed with ⟨readName, readSchema⟩
        exact
          { inAddress := rfl
            name := held ▸ readName
            place := Datum.eq_str_of_isText isQuery
            required := rfl
            schema := ⟨made, annotated, readSchema⟩ }
      · cases success
  · cases success

/-- A body as it has been stated, made from filters or taken as a whole. -/
structure IsBodyParameter
    (definitions : Datum)
    (querying : Bool)
    (entries : Entries)
    (parameter : Parameter) : Prop where
  location : parameter.location = if querying then .filter else .entity
  required : parameter.required = (entries.held "required").isTruthy
  content :
    Content.IsRead definitions (entries.held "content") parameter.name
      parameter.schema

theorem isBodyParameter_of_bodyParameter
    {definitions body : Datum} {querying : Bool} {operation : String}
    {parameter : Parameter}
    (success :
      bodyParameter definitions body querying operation = .ok parameter) :
    ∃ entries : Entries,
      body = .map entries ∧
        IsBodyParameter definitions querying entries parameter := by
  rw [bodyParameter] at success
  rcases exists_of_bind_eq_ok success with ⟨found, looked, success⟩
  rcases Datum.exists_of_member? looked with ⟨entries, rfl, rfl⟩
  refine ⟨entries, rfl, ?_⟩
  dsimp only at success
  split at success
  · next content present =>
    have held : entries.held "content" = content :=
      Entries.held_of_get? (Option.filter_eq_some_iff.1 present).1
    rcases exists_of_bind_eq_ok success with ⟨typed, read, success⟩
    rcases exists_of_bind_eq_ok success with ⟨required, stated, success⟩
    cases stated
    split at success
    · next isQuerying =>
      rcases exists_of_bind_eq_ok success with ⟨fields, -, success⟩
      rcases exists_of_bind_eq_ok success with ⟨checked, passed, same⟩
      cases same
      rcases eq_ok_of_checkedParameter passed with ⟨readName, readSchema⟩
      rcases checked with ⟨name, schema⟩
      cases readName
      exact
        { location := (if_pos isQuerying).symm
          required := rfl
          content := held ▸ Content.isRead_of_read read readSchema }
    · next notQuerying =>
      rcases exists_of_bind_eq_ok success with ⟨checked, passed, same⟩
      cases same
      rcases eq_ok_of_checkedParameter passed with ⟨readName, readSchema⟩
      rcases checked with ⟨name, schema⟩
      cases readName
      exact
        { location := (if_neg notQuerying).symm
          required := rfl
          content := held ▸ Content.isRead_of_read read readSchema }
  · cases success

/-! ## Responses -/

/-- The body of a response as its content states it. -/
structure IsResponseBody
    (definitions content : Datum) (body : ResponseBody) : Prop where
  streaming :
    body.streaming = Content.mediaTypeEndsIn "ndjson" body.mediaType
  content : Content.IsRead definitions content body.mediaType body.schema

theorem isResponseBody_of_responseBody
    {definitions content : Datum} {operation status : String}
    {body : ResponseBody}
    (success :
      responseBody definitions content operation status = .ok body) :
    IsResponseBody definitions content body := by
  rw [responseBody] at success
  split at success
  · cases success
  · rcases exists_of_bind_eq_ok success with ⟨typed, read, success⟩
    rcases exists_of_bind_eq_ok success with ⟨schema, passed, same⟩
    cases same
    rw [Checked.outcome_eq_ok_iff, Checked.inside_eq_ok_iff] at passed
    exact ⟨rfl, Content.isRead_of_read read passed⟩

/-- The content of a response, if it counts as present. -/
def statedContent (response : Datum) : Except Fault (Option Datum) :=
  if response.isTruthy then response.held? "content" else .ok none

theorem field?_of_statedContent
    {response : Datum} {found : Option Datum}
    (success : statedContent response = .ok found) :
    response.field? "content" = found := by
  rw [statedContent] at success
  split at success
  · exact Datum.field?_of_held? success
  · next absent =>
    cases success
    cases response with
    | map entries =>
      cases entries with
      | nil => rfl
      | cons entry rest => exact (absent rfl).elim
    | _ => rfl

/-- A response has a body if it has content. -/
theorem optionalBody_eq
    (definitions response : Datum) (operation status : String) :
    optionalBody definitions response operation status =
      (statedContent response >>= fun content =>
        content.elim (.ok none) fun content =>
          responseBody definitions content operation status >>= fun body =>
            .ok (some body)) := by
  rw [optionalBody, statedContent]
  split
  · refine bind_congr fun content => ?_
    cases content <;> rfl
  · rfl

theorem rel_isResponseBody_of_optionalBody
    {definitions response : Datum} {operation status : String}
    {found : Option ResponseBody}
    (success :
      optionalBody definitions response operation status = .ok found) :
    Option.Rel (IsResponseBody definitions) (response.field? "content")
      found := by
  rw [optionalBody_eq] at success
  rcases exists_of_bind_eq_ok success with ⟨content, stated, success⟩
  rw [field?_of_statedContent stated]
  cases content with
  | none =>
    cases success
    exact .none
  | some content =>
    rcases exists_of_bind_eq_ok success with ⟨body, made, same⟩
    cases same
    exact .some (isResponseBody_of_responseBody made)

/-- A response under a status, with its body if it has content. -/
def IsResponse
    (definitions : Datum)
    (response : Scalar × Datum)
    (body : String × Option ResponseBody) : Prop :=
  body.1 = response.1.plain ∧
    Option.Rel (IsResponseBody definitions) (response.2.field? "content")
      body.2

/-- The responses are read one by one; of those with one status the last stays. -/
theorem exists_of_responseBodies
    {definitions : Datum} {operation : String} {responses : Entries}
    {found bodies : Named (Option ResponseBody)}
    (success :
      responseBodies definitions operation found responses = .ok bodies) :
    ∃ read,
      List.Forall₂ (IsResponse definitions) responses read ∧
        bodies = Named.putAll found read := by
  induction responses generalizing found with
  | nil =>
    cases success
    exact ⟨[], .nil, rfl⟩
  | cons first rest ih =>
    rcases first with ⟨status, response⟩
    rw [responseBodies] at success
    rcases exists_of_bind_eq_ok success with ⟨body, here, success⟩
    rcases ih success with ⟨read, behind, rfl⟩
    exact
      ⟨(status.plain, body) :: read,
        .cons ⟨rfl, rel_isResponseBody_of_optionalBody here⟩ behind, rfl⟩

/-! ## Endpoints -/

/-- The parameters that an operation states itself, as they are listed. -/
def parameterList (operation : Operation) : Datum :=
  (operation.content.field? "parameters").getD (.list [])

/-- The body of the requests of an operation, if it counts as present. -/
def requestBody? (operation : Operation) : Option Datum :=
  (operation.content.field? "requestBody").filter Datum.isTruthy

/-- The responses of an operation under their statuses. -/
def responses (operation : Operation) : Entries :=
  match operation.content.field? "responses" with
  | some (.map entries) => entries
  | _ => []

theorem responses_eq
    {operation : Operation} {listed : Entries}
    (found :
      ((operation.content.field? "responses").getD .null).orEmptyMap =
        .map listed) :
    operation.responses = listed := by
  rw [responses]
  cases stated : operation.content.field? "responses" with
  | none =>
    rw [stated] at found
    cases found
    rfl
  | some value =>
    rw [stated, Option.getD_some, Datum.orEmptyMap] at found
    split at found
    · rw [found]
    · next absent =>
      cases found
      cases value with
      | map entries =>
        cases entries with
        | nil => rfl
        | cons entry rest => exact (absent rfl).elim
      | _ => rfl

/-- The body of a request, which only one method may have. -/
def IsRequestBody
    (definitions : Datum)
    (method : String)
    (streaming : Bool)
    (given : Datum)
    (parameter : Parameter) : Prop :=
  method = entityMethod ∧
    ∃ entries : Entries,
      given = .map entries ∧
        IsBodyParameter definitions streaming entries parameter

/-- An endpoint whose parts have been made from the parts of an operation. -/
structure IsBuilt
    (definitions : Datum)
    (operation : Operation)
    (endpoint : Endpoint) : Prop where
  parameters :
    ∃ (stated : List Entries) (address : List Parameter)
        (body : Option Parameter),
      mergeParameters operation.shared operation.parameterList = .ok stated ∧
        List.Forall₂ (IsAddressParameter definitions) stated address ∧
        Option.Rel
          (IsRequestBody definitions endpoint.method endpoint.streaming)
          operation.requestBody? body ∧
        endpoint.parameters = address ++ body.toList
  responses :
    ∃ read : Named (Option ResponseBody),
      List.Forall₂ (IsResponse definitions) operation.responses read ∧
        endpoint.responses = Named.putAll [] read
  streaming : endpoint.streaming = streams endpoint.responses

/-- An endpoint is built part by part. -/
theorem isBuilt_of_endpoint
    {definitions : Datum} {operation : Operation} {endpoint : Endpoint}
    (success : operation.endpoint definitions = .ok endpoint) :
    IsBuilt definitions operation endpoint := by
  rcases operation with ⟨path, method, content, shared⟩
  rw [Operation.endpoint] at success
  rcases exists_of_bind_eq_ok success with ⟨methodName, -, success⟩
  rcases exists_of_bind_eq_ok success with ⟨operationId, -, success⟩
  rcases exists_of_bind_eq_ok success with ⟨entries, isMap, success⟩
  rcases exists_of_bind_eq_ok success with ⟨stated, merged, success⟩
  rcases exists_of_bind_eq_ok success with ⟨address, addressed, success⟩
  rcases exists_of_bind_eq_ok success with ⟨listed, looked, success⟩
  rcases exists_of_bind_eq_ok success with ⟨bodies, answered, success⟩
  cases Datum.eq_map_of_entries isMap
  have each :
      List.Forall₂ (IsAddressParameter definitions) stated address :=
    (mapM_eq_ok_iff.1 addressed).imp fun _ _ made =>
      isAddressParameter_of_addressParameter made
  rcases exists_of_responseBodies answered with ⟨read, eachResponse, rfl⟩
  have listedEq :
      (Operation.mk path method (.map entries) shared).responses = listed :=
    responses_eq (Datum.eq_map_of_entries looked)
  rw [← listedEq] at eachResponse
  dsimp only at success
  split at success
  · next given present =>
    split at success
    · cases success
    · next isEntity =>
      rcases exists_of_bind_eq_ok success with ⟨parameter, made, success⟩
      simp only [pure_bind] at success
      split at success
      · rcases exists_of_bind_eq_ok success with ⟨texts, -, same⟩
        cases same
        have isBody := isBodyParameter_of_bodyParameter made
        refine ⟨⟨stated, address, some parameter, merged, each, ?_, rfl⟩,
          ⟨read, eachResponse, rfl⟩, rfl⟩
        rw [requestBody?, Datum.field?, ← presentMember?, present]
        exact .some ⟨Decidable.not_not.1 isEntity, isBody⟩
      · cases success
  · next absent =>
    simp only [pure_bind] at success
    split at success
    · rcases exists_of_bind_eq_ok success with ⟨texts, -, same⟩
      cases same
      refine ⟨⟨stated, address, none, merged, each, ?_, rfl⟩,
        ⟨read, eachResponse, rfl⟩, rfl⟩
      rw [requestBody?, Datum.field?, ← presentMember?, absent]
      exact .none
    · cases success

end Operation

end ApiAtlas
