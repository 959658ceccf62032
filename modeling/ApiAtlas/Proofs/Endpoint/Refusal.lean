import ApiAtlas.Proofs.Endpoint.SelfContained
import ApiAtlas.Proofs.Filter.Refusal

/-!
# Refused operations

An operation is well formed when each of its parts that is looked into has the
kind that the format gives it.  A well-formed operation whose parameters are
given inline becomes an endpoint or is refused with a declared fault.

A parameter that is given by reference is not looked up: it is taken as a
parameter without a name, which is a failure that nobody has declared.
-/

namespace ApiAtlas

open Schema (IsReadable isReadable_empty)

/-! ## Well-formed operations -/

/-- Content in which the schema of each media type is readable. -/
def Content.IsWellFormed (definitions : Datum) (content : Entries) : Prop :=
  ∀ type ∈ content, type.2.IsOptionalMap fun entry =>
    IsReadable definitions (statedSchema entry)

namespace Operation

/-- A parameter that is given inline, with a name. -/
structure StatesParameter (entries : Entries) : Prop where
  name : ∃ name : Scalar,
    Entries.get? (.str "name") entries = some (.scalar name)
  place : ∃ place : Scalar, entries.held "in" = .scalar place

/-- The front of every reference to a parameter. -/
def parameterFront : String := "#/components/parameters/"

/-- A parameter that is given by reference. -/
def RefersToParameter (entries : Entries) : Prop :=
  ∃ name : String,
    entries =
      Fields.toEntries
        [(Schema.referenceMember, .str (parameterFront ++ name))]

/-- A list of parameters with readable schemas. -/
def ListsParameters (isParameter : Entries → Prop) (definitions value : Datum) :
    Prop :=
  ∃ listed, value = .list listed ∧ ∀ parameter ∈ listed, ∃ entries,
    parameter = .map entries ∧ isParameter entries ∧
      IsReadable definitions (statedSchema entries)

/-- A message, as a request or a response is, whose content is well formed. -/
def IsMessage (definitions : Datum) (message : Entries) : Prop :=
  (message.held "content").IsOptionalMap (Content.IsWellFormed definitions)

/-- An operation whose parts have the kinds that the format gives them. -/
structure IsWellFormed (isParameter : Entries → Prop) (definitions : Datum)
    (entries : Entries) : Prop where
  operationId : (entries.held "operationId").isTruthy = true →
    ∃ text, entries.held "operationId" = .str text
  parameters : ListsParameters isParameter definitions
    ((Entries.get? (.str "parameters") entries).getD (.list []))
  requestBody :
    (entries.held "requestBody").IsOptionalMap (IsMessage definitions)
  responses : (entries.held "responses").IsOptionalMap fun responses =>
    ∀ response ∈ responses, response.2.IsOptionalMap (IsMessage definitions)

end Operation

/-! ## Content -/

namespace Content

theorem exists_firstJson?
    {content : Entries} (keys : content.HasTextKeys) :
    ∃ found, firstJson? content = .ok found := by
  induction content with
  | nil => exact ⟨none, rfl⟩
  | cons type rest ih =>
    rw [Entries.HasTextKeys, List.map_cons, List.forall_mem_cons] at keys
    rcases type with ⟨key, entry⟩
    rcases keys.1 with ⟨text, rfl⟩
    rw [firstJson?]
    split
    · exact ⟨some text, rfl⟩
    · exact ih keys.2

/-- Content that is not empty has a media type that is used. -/
theorem exists_mediaType
    {content : Entries} (keys : content.HasTextKeys) (present : content ≠ []) :
    ∃ found, mediaType content = .ok found := by
  cases content with
  | nil => exact (present rfl).elim
  | cons type rest =>
    rcases type with ⟨key, entry⟩
    rcases keys key List.mem_cons_self with ⟨text, rfl⟩
    rcases exists_firstJson? keys with ⟨first, success⟩
    unfold mediaType
    rw [success]
    cases first with
    | some used => exact ⟨used, rfl⟩
    | none => exact ⟨text, rfl⟩

/-- Well-formed content is read or refused. -/
theorem failsAsDeclared_read
    {definitions content : Entries} (keys : content.HasTextKeys)
    (present : content ≠ [])
    (wellFormed : IsWellFormed (.map definitions) content) :
    FailsAsDeclared (read (.map definitions) (.map content)) := by
  rcases exists_mediaType keys present with ⟨text, used⟩
  rw [read]
  refine (failsAsDeclared_of_eq_ok used).bind ?_
  intro mediaType _
  have entryReadable :
      ((Entries.get? (.str mediaType) content).getD .null).IsOptionalMap
        fun entry => IsReadable (.map definitions) (statedSchema entry) := by
    cases found : Entries.get? (.str mediaType) content with
    | none => exact Datum.isOptionalMap_null _
    | some value =>
      rcases Entries.exists_mem_of_get? found with ⟨type, isType, rfl⟩
      exact wellFormed type isType
  rcases entryReadable.orEmptyMap (isReadable_empty _) with
    ⟨entry, same, readable⟩
  dsimp only
  rw [same]
  exact (Schema.failsAsDeclared_inlineWithExamples readable).bind_pure _

end Content

namespace Operation

variable {isParameter : Entries → Prop} {definitions : Entries}

/-! ## Parameters -/

/-- Parameters with a name and a place can be put together. -/
theorem exists_foldlM_mergeParameter
    {holds : Entries → Prop} {parts : List Datum} {merged : Merged}
    (each : ∀ part ∈ parts, ∃ entries,
      part = .map entries ∧ StatesParameter entries ∧ holds entries)
    (before : ∀ entry ∈ merged, StatesParameter entry.2 ∧ holds entry.2) :
    ∃ others, parts.foldlM mergeParameter merged = .ok others ∧
      ∀ entry ∈ others, StatesParameter entry.2 ∧ holds entry.2 := by
  induction parts generalizing merged with
  | nil => exact ⟨merged, rfl, before⟩
  | cons part rest ih =>
    rw [List.forall_mem_cons] at each
    rcases each.1 with ⟨entries, rfl, states, here⟩
    rcases states.name with ⟨name, named⟩
    rcases states.place with ⟨place, placed⟩
    have step :
        mergeParameter merged (.map entries) =
          .ok (putParameter ⟨name, place⟩ entries merged) := by
      rw [Entries.held] at placed
      rw [mergeParameter]
      simp only [Datum.entries, bind, Except.bind, named, placed,
        Option.getD_some, Datum.key]
      rfl
    rw [List.foldlM_cons, step]
    apply ih each.2
    intro entry member
    rcases mem_putParameter member with old | ⟨new, -⟩
    · exact before entry old
    · rw [new]
      exact ⟨states, here⟩

/-- Inline parameters can be put together, and stay readable. -/
theorem exists_mergeParameters
    {shared own definitions : Datum}
    (sharedListed : shared.isTruthy = true →
      ListsParameters StatesParameter definitions shared)
    (ownListed : ListsParameters StatesParameter definitions own) :
    ∃ merged, mergeParameters shared own = .ok merged ∧
      ∀ entries ∈ merged, StatesParameter entries ∧
        IsReadable definitions (statedSchema entries) := by
  rcases ownListed with ⟨listed, rfl, ownEach⟩
  have shares :
      ∃ parts, sharedParts shared = .ok parts ∧
        ∀ part ∈ parts, ∃ entries, part = .map entries ∧
          StatesParameter entries ∧
            IsReadable definitions (statedSchema entries) := by
    rw [sharedParts]
    split
    · next present =>
      rcases sharedListed present with ⟨parts, rfl, each⟩
      exact ⟨parts, rfl, each⟩
    · exact ⟨[], rfl, List.forall_mem_nil _⟩
  rcases shares with ⟨parts, isShared, each⟩
  rcases exists_foldlM_mergeParameter each (List.forall_mem_nil _) with
    ⟨first, sharedMerged, before⟩
  rcases exists_foldlM_mergeParameter ownEach before with
    ⟨all, ownMerged, eachMerged⟩
  refine ⟨all.map Prod.snd, ?_, List.forall_mem_map.2 eachMerged⟩
  rw [mergeParameters_eq]
  simp only [isShared, sharedMerged, Datum.parts, bind, Except.bind, ownMerged]

/-- A parameter with a name and a readable schema is modelled or refused. -/
theorem failsAsDeclared_addressParameter
    {entries : Entries} (states : StatesParameter entries)
    (readable : IsReadable (.map definitions) (statedSchema entries)) :
    FailsAsDeclared (addressParameter (.map definitions) entries) := by
  rcases states.name with ⟨name, named⟩
  rw [addressParameter]
  simp only [named]
  refine (Schema.failsAsDeclared_inlineWithExamples readable).bind ?_
  intro schema _
  split
  · exact (failsAsDeclared_outcome _).bind_pure _
  · split
    · exact (failsAsDeclared_outcome _).bind_pure _
    · exact failsAsDeclared_of_isOwn rfl

/-- The body of a request with well-formed content is modelled or refused. -/
theorem failsAsDeclared_bodyParameter
    {body : Entries} {querying : Bool} {operation : String}
    (keysOfDefinitions :
      Datum.EachMap Entries.HasTextKeys (.map definitions))
    (keys : Datum.EachMap Entries.HasTextKeys (.map body))
    (message : IsMessage (.map definitions) body) :
    FailsAsDeclared
      (bodyParameter (.map definitions) (.map body) querying operation) := by
  rw [bodyParameter]
  refine (failsAsDeclared_ok _).bind ?_
  intro content same
  cases same
  dsimp only
  split
  · next content present =>
    rcases Option.filter_eq_some_iff.1 present with ⟨found, truthy⟩
    have optional := message
    rw [IsMessage, Entries.held_of_get? found] at optional
    rcases optional truthy with ⟨types, rfl, wellFormed⟩
    have nonempty : types ≠ [] := by
      rintro rfl
      cases truthy
    have keysOfContent := keys.of_get? found
    refine
      (Content.failsAsDeclared_read keysOfContent.of_map nonempty
        wellFormed).bind ?_
    intro typed read
    refine (failsAsDeclared_ok _).bind ?_
    intro required _
    split
    · rcases Content.exists_of_read read with
        ⟨_, given, isMap, -, isEntry, made⟩
      cases isMap
      have keysOfNode :=
        keysOfContent.statedSchema_of_held (List.forall_mem_nil _) isEntry
      refine
        (Filter.failsAsDeclared_fieldsOf keysOfDefinitions keysOfNode
          made).bind ?_
      intro fields _
      exact (failsAsDeclared_outcome _).bind_pure _
    · exact (failsAsDeclared_outcome _).bind_pure _
  · exact failsAsDeclared_of_isOwn rfl

/-! ## Responses -/

theorem failsAsDeclared_responseBody
    {content : Datum} {operation status : String}
    (keys : content.EachMap Entries.HasTextKeys)
    (optional :
      content.IsOptionalMap (Content.IsWellFormed (.map definitions))) :
    FailsAsDeclared
      (responseBody (.map definitions) content operation status) := by
  rw [responseBody]
  split
  · exact failsAsDeclared_of_isOwn rfl
  · next present =>
    rw [Bool.not_eq_true, Bool.not_eq_false'] at present
    rcases optional present with ⟨types, rfl, wellFormed⟩
    have nonempty : types ≠ [] := by
      rintro rfl
      cases present
    refine (Content.failsAsDeclared_read keys.of_map nonempty wellFormed).bind ?_
    intro typed _
    exact (failsAsDeclared_outcome _).bind_pure _

theorem failsAsDeclared_optionalBody
    {response : Datum} {operation status : String}
    (keys : response.EachMap Entries.HasTextKeys)
    (optional : response.IsOptionalMap (IsMessage (.map definitions))) :
    FailsAsDeclared
      (optionalBody (.map definitions) response operation status) := by
  rw [optionalBody]
  dsimp only
  split
  · next present =>
    rcases optional present with ⟨message, rfl, wellFormed⟩
    refine (failsAsDeclared_ok _).bind ?_
    intro held same
    cases same
    split
    · next content found =>
      rw [IsMessage, Entries.held_of_get? found] at wellFormed
      exact
        (failsAsDeclared_responseBody (keys.of_get? found) wellFormed).bind_pure _
    · exact failsAsDeclared_ok _
  · exact failsAsDeclared_ok _

/-- The bodies of all responses are modelled, or one of them is refused. -/
theorem failsAsDeclared_responseBodies
    {operation : String} {responses : Entries}
    {found : Named (Option ResponseBody)}
    (keys : ∀ response ∈ responses,
      response.2.EachMap Entries.HasTextKeys)
    (optional : ∀ response ∈ responses,
      response.2.IsOptionalMap (IsMessage (.map definitions))) :
    FailsAsDeclared
      (responseBodies (.map definitions) operation found responses) := by
  induction responses generalizing found with
  | nil => exact failsAsDeclared_ok _
  | cons first rest ih =>
    rw [List.forall_mem_cons] at keys optional
    rcases first with ⟨status, response⟩
    rw [responseBodies]
    refine (failsAsDeclared_optionalBody keys.1 optional.1).bind ?_
    intro body _
    exact ih keys.2 optional.2

/-! ## Endpoints -/

/-- The name of an operation is a text, stated or made from its path. -/
theorem exists_operationId
    {entries : Entries} {method path : String}
    (stated : (entries.held "operationId").isTruthy = true →
      ∃ text, entries.held "operationId" = .str text) :
    ∃ text,
      operationId (.map entries) method (.str path) = .ok (.str text) := by
  rw [operationId]
  simp only [Datum.member?, bind, Except.bind]
  cases present :
      (Entries.get? (.str "operationId") entries).filter Datum.isTruthy with
  | none => exact ⟨Naming.derivedId method path, rfl⟩
  | some name =>
    rcases Option.filter_eq_some_iff.1 present with ⟨found, truthy⟩
    rw [Entries.held_of_get? found] at stated
    rcases stated truthy with ⟨text, rfl⟩
    exact ⟨text, rfl⟩

theorem failsAsDeclared_httpMethod (method : String) :
    FailsAsDeclared (httpMethod (.str method)) := by
  rw [httpMethod, Naming.method]
  split
  · exact failsAsDeclared_ok _
  · exact failsAsDeclared_of_isOwn rfl

/-- A well-formed operation becomes an endpoint or is refused as declared. -/
theorem failsAsDeclared_endpoint
    {path method : String} {entries : Entries} {shared : Datum}
    (keysOfDefinitions :
      Datum.EachMap Entries.HasTextKeys (.map definitions))
    (keys : Datum.EachMap Entries.HasTextKeys (.map entries))
    (sharedListed : shared.isTruthy = true →
      ListsParameters StatesParameter (.map definitions) shared)
    (wellFormed : IsWellFormed StatesParameter (.map definitions) entries) :
    FailsAsDeclared
      (endpoint (.map definitions)
        ⟨.str path, .str method, .map entries, shared⟩) := by
  rcases exists_mergeParameters sharedListed wellFormed.parameters with
    ⟨merged, merging, parameters⟩
  rcases wellFormed.responses.orEmptyMap (List.forall_mem_nil _) with
    ⟨responses, responsesEq, messages⟩
  have keysOfResponses : ∀ response ∈ responses,
      response.2.EachMap Entries.HasTextKeys := by
    have above : (Datum.map responses).EachMap Entries.HasTextKeys := by
      rw [← responsesEq]
      exact
        (keys.of_getD (.str "responses") (.scalar .null)).orEmptyMap
          (List.forall_mem_nil _)
    cases above with
    | map _ each => exact each
  rw [Operation.endpoint]
  refine (failsAsDeclared_httpMethod method).bind ?_
  intro capital _
  rcases exists_operationId wellFormed.operationId with ⟨idText, named⟩
  refine (failsAsDeclared_of_eq_ok named).bind ?_
  intro operationId same
  cases named.symm.trans same
  refine (failsAsDeclared_ok _).bind ?_
  intro content same
  cases same
  refine (failsAsDeclared_of_eq_ok merging).bind ?_
  intro stated same
  cases merging.symm.trans same
  have addressed :
      FailsAsDeclared (merged.mapM (addressParameter (.map definitions))) :=
    failsAsDeclared_mapM fun entries isStated =>
      failsAsDeclared_addressParameter (parameters entries isStated).1
        (parameters entries isStated).2
  refine addressed.bind ?_
  intro address _
  rw [Entries.held] at responsesEq
  dsimp only
  rw [responsesEq]
  refine (failsAsDeclared_ok _).bind ?_
  intro listed same
  cases same
  refine (failsAsDeclared_responseBodies keysOfResponses messages).bind ?_
  intro bodies _
  split
  · next body present =>
    split
    · exact failsAsDeclared_of_isOwn rfl
    · rcases Option.filter_eq_some_iff.1 present with ⟨found, truthy⟩
      have optional := wellFormed.requestBody
      rw [Entries.held_of_get? found] at optional
      rcases optional truthy with ⟨body, rfl, message⟩
      refine
        (failsAsDeclared_bodyParameter keysOfDefinitions (keys.of_get? found)
          message).bind ?_
      intro parameter _
      exact (failsAsDeclared_outcome _).bind_pure _
  · exact (failsAsDeclared_outcome _).bind_pure _

end Operation

end ApiAtlas
