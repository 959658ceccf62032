import ApiAtlas.Proofs.Data.Shown
import ApiAtlas.Proofs.Endpoint.MediaType
import ApiAtlas.Proofs.Endpoint.Merging

/-!
# How operations are classified

An endpoint answers with a stream if its response of status 200 has content
whose media type ends in the word `ndjson`.  Its parameters are those that have
been put together and, if there is a request body, one more: filters if the
endpoint answers with a stream, and else an entity.

A media type is looked at as a line, so that it may have a line end behind the
word; and of two responses whose statuses are the number 200 and its text the
last one counts.  Operations that state their parts plainly have neither.
-/

namespace ApiAtlas

namespace Operation

/-! ## Responses of status 200 -/

/-- The status of the response that an endpoint answers with. -/
def IsOkStatus (status : Scalar) : Prop :=
  status = .int 200 ∨ status = .str "200"

instance (status : Scalar) : Decidable (IsOkStatus status) :=
  inferInstanceAs (Decidable (_ ∨ _))

theorem plain_eq_ok_iff {status : Scalar} :
    status.plain = "200" ↔ IsOkStatus status := by
  have text : toString (200 : Nat) = "200" := by decide
  rw [IsOkStatus, ← text]
  exact Scalar.plain_eq_toString_iff

/-- The last response of that status. -/
def lastOk? (responses : Entries) : Option (Scalar × Datum) :=
  responses.reverse.find? fun response => IsOkStatus response.1

theorem of_lastOk?
    {responses : Entries} {response : Scalar × Datum}
    (found : lastOk? responses = some response) :
    response ∈ responses ∧ IsOkStatus response.1 := by
  rw [lastOk?] at found
  have isOk := List.find?_some found
  exact
    ⟨List.mem_reverse.1 (List.mem_of_find?_eq_some found),
      of_decide_eq_true isOk⟩

/-- A response that is the last one of that status. -/
def IsLastAnswer (operation : Operation) (response : Datum) : Prop :=
  ∃ status, lastOk? operation.responses = some (status, response)

/-- A response of that status. -/
def IsAnswer (operation : Operation) (response : Datum) : Prop :=
  ∃ status, (status, response) ∈ operation.responses ∧ IsOkStatus status

/-- If there is one response of that status, it is the last one. -/
theorem lastOk?_eq_some
    {responses : Entries} {response : Scalar × Datum}
    (member : response ∈ responses) (isOk : IsOkStatus response.1)
    (only : ∀ other ∈ responses, IsOkStatus other.1 → other = response) :
    lastOk? responses = some response := by
  have present : (lastOk? responses).isSome = true := by
    rw [lastOk?, List.find?_isSome]
    exact ⟨response, List.mem_reverse.2 member, decide_eq_true isOk⟩
  rcases Option.isSome_iff_exists.1 present with ⟨last, found⟩
  rcases of_lastOk? found with ⟨isLast, isOkLast⟩
  rw [found, only last isLast isOkLast]

variable {definitions : Datum} {operation : Operation} {endpoint : Endpoint}

/-- What stands under the text 200 is the last response of that status. -/
theorem IsBuilt.rel_ok (built : IsBuilt definitions operation endpoint) :
    Option.Rel (IsResponse definitions) (lastOk? operation.responses)
      (endpoint.responses.find? fun response => response.1 == "200") := by
  rcases built.responses with ⟨read, each, responsesEq⟩
  rw [responsesEq, Named.find?_putAll, List.find?_nil, Option.or_none]
  refine rel_find?_of_forall₂ (List.forall₂_reverse_iff.2 each) ?_
  rintro response body ⟨status, -⟩
  rw [status, decide_eq_decide.2 plain_eq_ok_iff.symm]
  rfl

theorem streams_eq_true_iff {responses : Named (Option ResponseBody)} :
    streams responses = true ↔
      ∃ status body,
        (responses.find? fun response => response.1 == "200") =
            some (status, some body) ∧
          body.streaming = true := by
  rw [streams]
  split
  · next status body found =>
    constructor
    · intro streaming
      exact ⟨status, body, found, streaming⟩
    · rintro ⟨own, other, foundToo, streaming⟩
      cases found.symm.trans foundToo
      exact streaming
  · next other =>
    constructor
    · intro false
      cases false
    · rintro ⟨status, body, found, -⟩
      exact (other status body found).elim

/-! ## Media types of messages -/

/-- The media types of the content of a message. -/
def contentTypes (message : Datum) : List Scalar :=
  match message.field? "content" with
  | some (.map content) => Content.types content
  | _ => []

/-- A message whose content is used with a media type. -/
def UsesType
    (endsIn : String → String → Prop) (message : Datum) (mediaType : String) :
    Prop :=
  Content.IsChosen (endsIn "json") (contentTypes message) mediaType

/-- Only a message with content uses a media type. -/
theorem exists_content_of_usesType
    {endsIn : String → String → Prop} {message : Datum} {mediaType : String}
    (usesType : UsesType endsIn message mediaType) :
    ∃ content, message.field? "content" = some content := by
  have member := usesType.mem
  rw [contentTypes] at member
  split at member
  · next content found => exact ⟨_, found⟩
  · cases member

/-- The media type that is used is the one that has been read. -/
theorem usesType_iff_of_isRead
    {message content : Datum} {mediaType chosen : String} {schema : Fields}
    (found : message.field? "content" = some content)
    (read : Content.IsRead definitions content mediaType schema) :
    UsesType Text.EndsInLine message chosen ↔ mediaType = chosen := by
  rcases read with ⟨types, entries, rfl, used, -, -⟩
  rw [UsesType, contentTypes, found]
  dsimp only
  rw [← Content.mediaType_eq_ok_iff, used, Except.ok.injEq]

/-- A request body as an endpoint takes it. -/
structure TakesBody
    (endsIn : String → String → Prop)
    (endpoint : Endpoint)
    (given : Datum)
    (parameter : Parameter) : Prop where
  method : endpoint.method = entityMethod
  location :
    parameter.location = if endpoint.streaming then .filter else .entity
  mediaType : UsesType endsIn given parameter.name

/-! ## The classification -/

/--
An operation whose parts are classified by the endings of media types and by
the responses that count as the answer.
-/
structure IsClassified
    (endsIn : String → String → Prop)
    (isAnswer : Datum → Prop)
    (definitions : Datum)
    (operation : Operation)
    (endpoint : Endpoint) : Prop where
  streaming :
    endpoint.streaming = true ↔
      ∃ response, isAnswer response ∧
        ∃ mediaType,
          UsesType endsIn response mediaType ∧ endsIn "ndjson" mediaType
  parameters :
    ∃ (address : List Parameter) (body : Option Parameter),
      endpoint.parameters = address ++ body.toList ∧
        List.Forall₂ (IsLastStated definitions operation.statedParameters)
          (statedKeys operation.statedParameters) address ∧
        Option.Rel (TakesBody endsIn endpoint) operation.requestBody? body
  responses :
    ∀ status body, (status, some body) ∈ endpoint.responses →
      ∃ response ∈ operation.responses,
        response.1.plain = status ∧
          UsesType endsIn response.2 body.mediaType ∧
          (body.streaming = true ↔ endsIn "ndjson" body.mediaType)

theorem takesBody_of_isRequestBody
    {given : Datum} {parameter : Parameter}
    (isBody :
      IsRequestBody definitions endpoint.method endpoint.streaming given
        parameter) :
    TakesBody Text.EndsInLine endpoint given parameter := by
  rcases isBody with ⟨isEntity, entries, rfl, made⟩
  refine ⟨isEntity, made.location, ?_⟩
  have read := made.content
  cases found : Entries.get? (.str "content") entries with
  | none =>
    rw [Entries.held, found] at read
    rcases read with ⟨types, own, isMap, -⟩
    cases isMap
  | some content =>
    rw [Entries.held_of_get? found] at read
    have present : (Datum.map entries).field? "content" = some content := found
    exact (usesType_iff_of_isRead present read).2 rfl

/-- The media types and the streaming of a response that has a body. -/
theorem IsResponseBody.iff_and_iff
    {message content : Datum} {body : ResponseBody}
    (made : IsResponseBody definitions content body)
    (found : message.field? "content" = some content) :
    (∀ chosen,
        UsesType Text.EndsInLine message chosen ↔ body.mediaType = chosen) ∧
      (body.streaming = true ↔ Text.EndsInLine "ndjson" body.mediaType) := by
  rw [made.streaming, Content.endsIn_ndjson_iff]
  exact ⟨fun _ => usesType_iff_of_isRead found made.content, Iff.rfl⟩

theorem IsBuilt.streaming_iff
    (built : IsBuilt definitions operation endpoint) :
    endpoint.streaming = true ↔
      ∃ response,
        operation.IsLastAnswer response ∧
          ∃ mediaType,
            UsesType Text.EndsInLine response mediaType ∧
              Text.EndsInLine "ndjson" mediaType := by
  have both := built.rel_ok
  rw [built.streaming, streams_eq_true_iff]
  constructor
  · rintro ⟨status, body, found, streaming⟩
    rw [found] at both
    rcases exists_of_rel_some both with ⟨response, isLast, -, hasBody⟩
    rcases exists_of_rel_some hasBody with ⟨content, present, made⟩
    rcases made.iff_and_iff present with ⟨uses, streams⟩
    exact
      ⟨response.2, ⟨response.1, isLast⟩, body.mediaType,
        (uses body.mediaType).2 rfl, streams.1 streaming⟩
  · rintro ⟨response, ⟨status, isLast⟩, mediaType, usesType, ends⟩
    rcases exists_content_of_usesType usesType with ⟨content, present⟩
    rw [isLast] at both
    rcases exists_of_some_rel both with ⟨⟨own, optional⟩, found, -, hasBody⟩
    dsimp only at hasBody
    rw [present] at hasBody
    rcases exists_of_some_rel hasBody with ⟨body, rfl, made⟩
    rcases made.iff_and_iff present with ⟨uses, streams⟩
    rw [← (uses mediaType).1 usesType, ← streams] at ends
    exact ⟨own, body, found, ends⟩

/-- An endpoint is classified, its media types being looked at as lines. -/
theorem IsBuilt.isClassified
    (built : IsBuilt definitions operation endpoint) :
    IsClassified Text.EndsInLine operation.IsLastAnswer definitions operation
      endpoint := by
  refine ⟨built.streaming_iff, ?_, ?_⟩
  · rcases built.exists_parameters with
      ⟨address, body, each, isBody, parametersEq⟩
    exact
      ⟨address, body, parametersEq, each,
        rel_imp isBody fun _ _ _ => takesBody_of_isRequestBody⟩
  · rcases built.responses with ⟨read, each, responsesEq⟩
    rw [responsesEq]
    intro status body member
    rcases Named.mem_or_mem_of_mem_putAll member with before | isRead
    · cases before
    · rcases exists_mem_of_forall₂ each isRead with
        ⟨response, isListed, named, hasBody⟩
      rcases exists_of_rel_some hasBody with ⟨content, present, made⟩
      rcases made.iff_and_iff present with ⟨uses, streams⟩
      exact
        ⟨response, isListed, named.symm, (uses body.mediaType).2 rfl, streams⟩

/-! ## Operations that state their parts plainly -/

/-- The bodies of requests and responses, as they are stated. -/
def messages (operation : Operation) : List Datum :=
  operation.requestBody?.toList ++ operation.responses.map Prod.snd

/-- No media type has a line end at its end, and one response has status 200. -/
structure StatesPlainly (operation : Operation) : Prop where
  noLineEnds :
    ∀ message ∈ operation.messages, ∀ type ∈ contentTypes message,
      type.plain.toList.getLast? ≠ some '\n'
  oneAnswer :
    ∀ one ∈ operation.responses, ∀ other ∈ operation.responses,
      IsOkStatus one.1 → IsOkStatus other.1 → one = other

namespace StatesPlainly

variable {message : Datum} {mediaType : String}

theorem endsInLine_iff
    (plainly : operation.StatesPlainly) (isMessage : message ∈ operation.messages)
    (listed : .str mediaType ∈ contentTypes message) (word : String) :
    Text.EndsInLine word mediaType ↔ Text.EndsIn word mediaType :=
  Text.endsInLine_iff (plainly.noLineEnds message isMessage _ listed)

theorem usesType_iff
    (plainly : operation.StatesPlainly)
    (isMessage : message ∈ operation.messages) :
    UsesType Text.EndsInLine message mediaType ↔
      UsesType Text.EndsIn message mediaType :=
  ⟨Content.IsChosen.congr fun _ listed =>
      plainly.endsInLine_iff isMessage listed "json",
    Content.IsChosen.congr fun _ listed =>
      (plainly.endsInLine_iff isMessage listed "json").symm⟩

theorem isLastAnswer_iff
    (plainly : operation.StatesPlainly) {response : Datum} :
    operation.IsLastAnswer response ↔ operation.IsAnswer response := by
  constructor
  · rintro ⟨status, isLast⟩
    exact ⟨status, of_lastOk? isLast⟩
  · rintro ⟨status, isListed, isOk⟩
    refine ⟨status, lastOk?_eq_some isListed isOk ?_⟩
    intro other isListedToo isOkToo
    exact plainly.oneAnswer other isListedToo _ isListed isOkToo isOk

end StatesPlainly

theorem mem_messages_of_isAnswer
    {response : Datum} (isAnswer : operation.IsAnswer response) :
    response ∈ operation.messages := by
  rcases isAnswer with ⟨status, isListed, -⟩
  exact List.mem_append_right _ (List.mem_map.2 ⟨_, isListed, rfl⟩)

/-- Operations that state their parts plainly are classified by plain endings. -/
theorem IsClassified.of_statesPlainly
    (classified :
      IsClassified Text.EndsInLine operation.IsLastAnswer definitions operation
        endpoint)
    (plainly : operation.StatesPlainly) :
    IsClassified Text.EndsIn operation.IsAnswer definitions operation
      endpoint := by
  refine ⟨?_, ?_, ?_⟩
  · rw [classified.streaming]
    refine exists_congr fun response => ?_
    rw [plainly.isLastAnswer_iff]
    refine and_congr_right fun isAnswer => ?_
    have isMessage := mem_messages_of_isAnswer isAnswer
    refine exists_congr fun mediaType => ?_
    rw [plainly.usesType_iff isMessage]
    refine and_congr_right fun usesType => ?_
    exact plainly.endsInLine_iff isMessage usesType.mem "ndjson"
  · rcases classified.parameters with ⟨address, body, parametersEq, each, takes⟩
    refine ⟨address, body, parametersEq, each, rel_imp takes ?_⟩
    intro given parameter present taken
    have isMessage : given ∈ operation.messages :=
      List.mem_append_left _ (Option.mem_toList.2 present)
    exact
      ⟨taken.method, taken.location,
        (plainly.usesType_iff isMessage).1 taken.mediaType⟩
  · intro status body member
    rcases classified.responses status body member with
      ⟨response, isListed, named, usesType, streams⟩
    have isMessage : response.2 ∈ operation.messages :=
      List.mem_append_right _ (List.mem_map_of_mem isListed)
    rw [plainly.endsInLine_iff isMessage usesType.mem] at streams
    exact
      ⟨response, isListed, named, (plainly.usesType_iff isMessage).1 usesType,
        streams⟩

/--
An endpoint is classified by the last response of status 200 and by media types
looked at as lines; if the operation states its parts plainly, it is classified
by the response of status 200 and by what the media types end in.
-/
theorem endpoint_isClassified
    (success : operation.endpoint definitions = .ok endpoint) :
    IsClassified Text.EndsInLine operation.IsLastAnswer definitions operation
        endpoint ∧
      (operation.StatesPlainly →
        IsClassified Text.EndsIn operation.IsAnswer definitions operation
          endpoint) := by
  have classified := (isBuilt_of_endpoint success).isClassified
  exact ⟨classified, classified.of_statesPlainly⟩

/-- An operation that answers with rows of a media type. -/
def rowsOperation (mediaType : String) : Operation :=
  { path := .str "/rows"
    method := .str "post"
    content :=
      .object
        [("operationId", .str "rows"),
          ("parameters", .list [.object [("name", .str "limit")]]),
          ("requestBody",
            .object
              [("content",
                .object
                  [("text/csv", .object []), ("application/JSON", .object [])])]),
          ("responses",
            .map
              [(.int 200,
                .object [("content", .object [(mediaType, .object [])])])])]
    shared := .null }

/-- The endpoint of that operation, if it answers with a stream. -/
def rowsEndpoint (mediaType : String) : Endpoint :=
  { operationId := "rows"
    methodName := "rows"
    title := "rows"
    method := "POST"
    path := "/rows"
    parameters :=
      [.query "limit" false unstatedSchema,
        .filter "application/JSON" false [] unstatedSchema]
    responses := [("200", some ⟨unstatedSchema, mediaType, true⟩)]
    streaming := true
    tags := [] }

/-- A stream of rows takes filters, of the first type that ends in the word. -/
theorem endpoint_isClassified_rows :
    (rowsOperation "application/X-NDJSON").endpoint (.map []) =
        .ok (rowsEndpoint "application/X-NDJSON") ∧
      (rowsOperation "application/X-NDJSON").StatesPlainly ∧
      IsClassified Text.EndsIn
        (rowsOperation "application/X-NDJSON").IsAnswer (.map [])
        (rowsOperation "application/X-NDJSON")
        (rowsEndpoint "application/X-NDJSON") := by
  have built :
      (rowsOperation "application/X-NDJSON").endpoint (.map []) =
        .ok (rowsEndpoint "application/X-NDJSON") := by
    decide +kernel
  have plainly : (rowsOperation "application/X-NDJSON").StatesPlainly :=
    ⟨by decide +kernel, by decide +kernel⟩
  exact ⟨built, plainly, (endpoint_isClassified built).2 plainly⟩

/-- A media type with a line end behind the word makes a stream too. -/
theorem not_forall_endpoint_isClassified :
    ¬ ∀ (definitions : Datum) (operation : Operation) (endpoint : Endpoint),
      operation.endpoint definitions = .ok endpoint →
        IsClassified Text.EndsIn operation.IsAnswer definitions operation
          endpoint := by
  intro classified
  have built :
      (rowsOperation "application/x-ndjson\n").endpoint (.map []) =
        .ok (rowsEndpoint "application/x-ndjson\n") := by
    decide +kernel
  rcases (classified _ _ _ built).streaming.1 rfl with
    ⟨response, ⟨status, isListed, -⟩, mediaType, usesType, ends⟩
  cases List.mem_singleton.1 isListed
  cases List.mem_singleton.1 usesType.mem
  rw [Text.EndsIn, ← Content.endsInWord_iff (by decide)] at ends
  revert ends
  decide

end Operation

end ApiAtlas
