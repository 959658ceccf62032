import ApiAtlas.Proofs.Endpoint.Merging
import ApiAtlas.Proofs.Request.Variant
import ApiAtlas.Proofs.Schema.Example

/-!
# Endpoints hold all they need

The schemas of an endpoint are taken from a description, but they do not need
it any more: their references have been replaced, and each of them lists at
least one example.  So the example requests of an endpoint never lack a value.

A schema is an object whose keys are texts, and a key that is given as bytes
counts as the text of the bytes.  This is read after the references have been
replaced, so bytes that spell the member of a reference make one that nobody
has followed.  In a description whose keys are clear this cannot happen.
-/

namespace ApiAtlas

/-- A schema that needs no definitions and has examples. -/
structure Schema.IsSelfContained (schema : Fields) : Prop where
  /-- No reference is left, and the nesting is not too deep. -/
  inlined :
    Schema.inline (.object schema) (.map []) Schema.depthLimit =
      .ok (.object schema)
  hasExamples : Schema.HasExamples schema

theorem Operation.isClear_responses
    {operation : Operation} (clear : operation.content.IsClear) :
    Datum.IsClear (.map operation.responses) := by
  rw [responses]
  split
  · next entries found => exact clear.of_field? found
  · exact Datum.isClear_empty

section Schemas

variable {definitions : Datum} (clearDefinitions : definitions.IsClear)
include clearDefinitions

/-- A schema that has been read as an object is self-contained. -/
theorem Schema.IsRead.isSelfContained
    {entries : Entries} {schema : Fields}
    (read : Schema.IsRead definitions entries schema)
    (clear : (statedSchema entries).IsClear) :
    Schema.IsSelfContained schema := by
  rcases read with ⟨made, annotated, read⟩
  have same : Fields.toEntries schema = made :=
    toEntries_of_readObject
      (Schema.hasClearKeys_of_inlineWithExamples clearDefinitions clear
        annotated)
      read
  rcases Schema.inline_of_inlineWithExamples annotated with ⟨kept, examples⟩
  rw [← same] at kept examples
  simp only [Fields.get?_toEntries] at examples
  exact ⟨kept (.map []), examples⟩

theorem Content.IsRead.isSelfContained
    {content : Datum} {mediaType : String} {schema : Fields}
    (read : Content.IsRead definitions content mediaType schema)
    (clear : content.IsClear) : Schema.IsSelfContained schema := by
  rcases read with ⟨types, entries, rfl, -, isEntry, read⟩
  exact
    read.isSelfContained clearDefinitions
      (clear.statedSchema_of_held .empty isEntry)

namespace Operation

/-- The schemas of an endpoint are those that its parts have been made with. -/
theorem isSelfContained_of_endpoint
    {operation : Operation} {endpoint : Endpoint}
    (clearContent : operation.content.IsClear)
    (clearShared : operation.shared.IsClear)
    (built : operation.endpoint definitions = .ok endpoint) :
    (∀ parameter ∈ endpoint.parameters,
        Schema.IsSelfContained parameter.schema) ∧
      ∀ status body, (status, some body) ∈ endpoint.responses →
        Schema.IsSelfContained body.schema := by
  have parts := isBuilt_of_endpoint built
  constructor
  · rcases parts.parameters with
      ⟨stated, address, body, merged, each, request, parametersEq⟩
    rw [parametersEq]
    intro parameter member
    rcases List.mem_append.1 member with inAddress | inBody
    · rcases exists_mem_of_forall₂ each inAddress with
        ⟨given, isStated, made⟩
      have clearList : operation.parameterList.IsClear :=
        clearContent.of_field?_getD _ (.list (List.forall_mem_nil _))
      have clearStated : Datum.IsClear (.map given) :=
        (List.mem_append.1 (mem_of_mergeParameters merged isStated)).elim
          clearShared.of_mem_objects clearList.of_mem_objects
      exact
        made.schema.isSelfContained clearDefinitions
          (clearStated.of_getD _ Datum.isClear_empty)
    · rw [Option.mem_toList.1 inBody] at request
      rcases exists_of_rel_some request with ⟨given, present, -, made⟩
      rcases made with ⟨members, rfl, made⟩
      have clearBody : Datum.IsClear (.map members) :=
        clearContent.of_field? (Option.filter_eq_some_iff.1 present).1
      exact
        made.content.isSelfContained clearDefinitions
          (clearBody.of_getD _ (.scalar .null))
  · rcases parts.responses with ⟨read, each, responsesEq⟩
    have clearResponses : Datum.IsClear (.map operation.responses) :=
      isClear_responses clearContent
    rw [responsesEq]
    intro status body member
    rcases Named.mem_or_mem_of_mem_putAll member with before | isRead
    · cases before
    · rcases exists_mem_of_forall₂ each isRead with
        ⟨response, present, -, hasBody⟩
      rcases exists_of_rel_some hasBody with ⟨content, found, made⟩
      exact
        made.content.isSelfContained clearDefinitions
          ((clearResponses.of_mem_map present).of_field? found)

end Operation

end Schemas

/--
Every schema of an endpoint needs no definitions and has examples, if the keys
of the description are clear.  So the examples of a parameter are always its
own, and every variant of the parameters has requests, which are all among the
example requests.
-/
theorem endpoint_isSelfContained
    {definitions : Datum} {operation : Operation} {endpoint : Endpoint}
    (clearDefinitions : definitions.IsClear)
    (clearContent : operation.content.IsClear)
    (clearShared : operation.shared.IsClear)
    (built : operation.endpoint definitions = .ok endpoint) :
    (∀ parameter ∈ endpoint.parameters,
        Schema.IsSelfContained parameter.schema) ∧
      (∀ status body, (status, some body) ∈ endpoint.responses →
        Schema.IsSelfContained body.schema) ∧
      (∀ parameter ∈ endpoint.parameters, ∃ first rest,
        Fields.get? "examples" parameter.schema =
            some (.list (first :: rest)) ∧
          Request.exampleChoices parameter = .ok (first :: rest)) ∧
      ∀ streaming : Bool, ∃ requests,
        Request.exampleRequests streaming endpoint.parameters =
            .ok requests ∧
          ∀ variant ∈ Request.variants endpoint.parameters,
            ∃ first rest,
              variant.requests streaming = .ok (first :: rest) ∧
                ∀ request ∈ first :: rest,
                  request.1 ∈ requests.map Prod.fst := by
  rcases Operation.isSelfContained_of_endpoint clearDefinitions clearContent
      clearShared built with
    ⟨parameters, responses⟩
  refine ⟨parameters, responses, ?_, ?_⟩
  · intro parameter member
    rcases (parameters parameter member).hasExamples with
      ⟨first, rest, listed⟩
    exact
      ⟨first, rest, listed, Request.exampleChoices_of_hasExamples listed⟩
  · exact
      Request.exists_exampleRequests fun parameter member =>
        (parameters parameter member).hasExamples

/-- The definitions of a description with one schema, a text. -/
def nameDefinitions : Datum :=
  .object [("Name", .object [("type", .str "string")])]

/-- An operation with one parameter, whose schema refers to that text by a key. -/
def nameOperation (key : Scalar) : Operation :=
  { path := .str "/a"
    method := .str "get"
    content :=
      .object
        [("operationId", .str "a"),
          ("parameters",
            .list
              [.object
                [("name", .str "p"),
                  ("schema",
                    .map [(key, .str (Schema.referenceTo "Name"))])]])]
    shared := .null }

/-- The endpoint of that operation, given the schema of its parameter. -/
def nameEndpoint (schema : Fields) : Endpoint :=
  { operationId := "a"
    methodName := "a"
    title := "a"
    method := "GET"
    path := "/a"
    parameters := [.query "p" false schema]
    responses := []
    streaming := false
    tags := [] }

/-- A schema that is a reference becomes the text that it refers to. -/
theorem endpoint_isSelfContained_reference :
    ∃ endpoint,
      (nameOperation (.str Schema.referenceMember)).endpoint
            nameDefinitions =
          .ok endpoint ∧
        ∀ parameter ∈ endpoint.parameters,
          Schema.IsSelfContained parameter.schema := by
  have built :
      (nameOperation (.str Schema.referenceMember)).endpoint
          nameDefinitions =
        .ok
          (nameEndpoint
            [("type", .str "string"), ("examples", .list [.str ""])]) := by
    decide +kernel
  have text (value : String) : Datum.IsClear (.str value) := .scalar _
  have single (name : String) {value : Datum} (clear : value.IsClear) :
      Datum.IsClear (.object [(name, value)]) :=
    Datum.isClear_object (List.pairwise_singleton _ _)
      (List.forall_mem_singleton.2 clear)
  have clearDefinitions : nameDefinitions.IsClear :=
    single "Name" (single "type" (text "string"))
  have clearParameters :
      Datum.IsClear
        (.list
          [.object
            [("name", .str "p"),
              ("schema",
                .object
                  [(Schema.referenceMember,
                    .str (Schema.referenceTo "Name"))])]]) := by
    refine .list (List.forall_mem_singleton.2 ?_)
    apply Datum.isClear_object (by decide)
    simp only [List.forall_mem_cons]
    exact ⟨text _, single _ (text _), List.forall_mem_nil _⟩
  have clearContent :
      (nameOperation (.str Schema.referenceMember)).content.IsClear := by
    apply Datum.isClear_object (by decide)
    simp only [List.forall_mem_cons]
    exact ⟨text _, clearParameters, List.forall_mem_nil _⟩
  exact
    ⟨_, built,
      (endpoint_isSelfContained clearDefinitions clearContent (.scalar .null)
        built).1⟩

/-- A reference whose key is given as bytes is not followed. -/
theorem not_forall_endpoint_isSelfContained :
    ¬ ∀ (definitions : Datum) (operation : Operation) (endpoint : Endpoint),
      operation.endpoint definitions = .ok endpoint →
        ∀ parameter ∈ endpoint.parameters,
          Schema.IsSelfContained parameter.schema := by
  intro selfContained
  have built :
      (nameOperation (.bytes (Text.utf8Bytes "$ref"))).endpoint
          nameDefinitions =
        .ok
          (nameEndpoint
            [(Schema.referenceMember, .str (Schema.referenceTo "Name")),
              ("examples", .list [.null])]) := by
    decide +kernel
  have inlined :=
    (selfContained _ _ _ built _ (List.mem_singleton_self _)).inlined
  revert inlined
  decide +kernel

end ApiAtlas
