import ApiAtlas.CommandLine.Run
import ApiAtlas.Proofs.Endpoint.Refusal

/-!
# Descriptions that are loaded or refused

A well-formed description whose parameters are given inline has a catalog, or
is refused with a declared fault.  So a command that needs the catalog of such
a description always goes on with it, or says that it cannot be loaded.

Parameters that are given by reference end in a failure that is not declared,
even where the reference leads to a parameter of the description.
-/

namespace ApiAtlas

open Operation (ListsParameters StatesParameter RefersToParameter)

/-! ## Well-formed descriptions -/

/-- A path item whose operations are well formed. -/
structure Catalog.IsPathItem (isParameter : Entries → Prop)
    (definitions : Datum) (item : Entries) : Prop where
  shared : (item.held "parameters").isTruthy = true →
    ListsParameters isParameter definitions (item.held "parameters")
  operations : ∀ entry ∈ item, isOperationKey entry.1 = true →
    ∃ operation, entry.2 = .map operation ∧
      Operation.IsWellFormed isParameter definitions operation

/--
A description in JSON whose schemas are a map, if there are any, and whose
paths hold items of well-formed operations.
-/
structure Document.IsWellFormed (isParameter : Entries → Prop)
    (description definitions : Entries) : Prop where
  json : Datum.isJson (.map description) = true
  versioned : Entries.has (.str "openapi") description = true
  defined :
    Document.definitions (.map description) = .ok (.map definitions)
  paths : (description.held "paths").IsOptionalMap fun paths =>
    ∀ path ∈ paths, path.2.IsOptionalMap
      (Catalog.IsPathItem isParameter (.map definitions))

/-! ## Catalogs -/

namespace Catalog

variable {definitions : Entries}

/-- A catalog is built, or the endpoint of one of the operations is refused. -/
theorem failsAsDeclared_addAll
    {definitions : Datum} {operations : List (Except Fault Operation)}
    (each : ∀ operation ∈ operations,
      FailsAsDeclared (operation.bind (Operation.endpoint definitions)))
    (catalog : Catalog) :
    FailsAsDeclared (addAll definitions catalog operations).outcome := by
  induction operations generalizing catalog with
  | nil => exact failsAsDeclared_ok catalog
  | cons operation rest ih =>
    rw [List.forall_mem_cons] at each
    rw [addAll]
    cases built : operation.bind (Operation.endpoint definitions) with
    | error fault => exact (each.1 fault built).failsAsDeclared
    | ok endpoint =>
      dsimp only
      split
      · exact ih each.2 _
      · exact ih each.2 _

/-- Each operation of a path becomes an endpoint or is refused as declared. -/
theorem failsAsDeclared_of_mem_pathOperations
    {path : String} {item : Datum} {operation : Except Fault Operation}
    (keysOfDefinitions :
      Datum.EachMap Entries.HasTextKeys (.map definitions))
    (keys : item.EachMap Entries.HasTextKeys)
    (optional :
      item.IsOptionalMap (IsPathItem StatesParameter (.map definitions)))
    (member : operation ∈ pathOperations (.str path) item) :
    FailsAsDeclared
      (operation.bind (Operation.endpoint (.map definitions))) := by
  rw [pathOperations] at member
  split at member
  · next present =>
    rcases optional present with ⟨entries, rfl, isItem⟩
    rcases List.mem_map.1 member with ⟨stated, listed, rfl⟩
    rcases List.mem_map.1 listed with ⟨⟨method, content⟩, isEntry, rfl⟩
    rcases List.mem_filter.1 isEntry with ⟨inItem, isOperation⟩
    rcases isItem.operations _ inItem isOperation with
      ⟨content, rfl, wellFormed⟩
    have shared :
        ((Entries.get? (.str "parameters") entries).getD (.list [])).isTruthy =
            true →
          ListsParameters StatesParameter (.map definitions)
            ((Entries.get? (.str "parameters") entries).getD (.list [])) := by
      have stated := isItem.shared
      rw [Entries.held] at stated
      cases found : Entries.get? (.str "parameters") entries with
      | none => exact fun present => by cases present
      | some value =>
        rw [found] at stated
        exact stated
    cases keys with
    | map here each =>
      rcases here method (List.mem_map_of_mem inItem) with ⟨text, rfl⟩
      exact
        Operation.failsAsDeclared_endpoint keysOfDefinitions (each _ inItem)
          shared wellFormed
  · cases member

/-- The catalog of paths of well-formed items is built or refused as declared. -/
theorem failsAsDeclared_build
    {paths : Datum}
    (keysOfDefinitions :
      Datum.EachMap Entries.HasTextKeys (.map definitions))
    (keys : paths.EachMap Entries.HasTextKeys)
    (optional :
      paths.IsOptionalMap fun paths =>
        ∀ path ∈ paths, path.2.IsOptionalMap
          (IsPathItem StatesParameter (.map definitions))) :
    FailsAsDeclared (build paths (.map definitions)).outcome := by
  apply failsAsDeclared_addAll
  rcases optional.orEmptyMap (List.forall_mem_nil _) with
    ⟨entries, same, items⟩
  have keysOfEntries : Datum.EachMap Entries.HasTextKeys (.map entries) := by
    rw [← same]
    exact keys.orEmptyMap (List.forall_mem_nil _)
  rw [operations, same]
  intro operation member
  rcases List.mem_flatMap.1 member with ⟨⟨path, item⟩, isPath, within⟩
  cases keysOfEntries with
  | map here each =>
    rcases here path (List.mem_map_of_mem isPath) with ⟨text, rfl⟩
    exact
      failsAsDeclared_of_mem_pathOperations keysOfDefinitions (each _ isPath)
        (items _ isPath) within

end Catalog

namespace Document

variable {isParameter : Entries → Prop} {description definitions : Entries}

/-- The definitions of a description are a part of it. -/
theorem eachMap_definitions
    {holds : Entries → Prop} {description definitions : Datum}
    (eachMap : description.EachMap holds) (empty : holds [])
    (success : Document.definitions description = .ok definitions) :
    definitions.EachMap holds := by
  rw [Document.definitions] at success
  rcases exists_of_bind_eq_ok success with ⟨components, looked, success⟩
  rcases exists_of_bind_eq_ok success with ⟨schemas, found, same⟩
  cases same
  have inComponents : (components.getD .null).EachMap holds := by
    cases components with
    | none => exact .scalar .null
    | some components => exact eachMap.of_member? looked
  have inSchemas : (schemas.getD .null).EachMap holds := by
    cases schemas with
    | none => exact .scalar .null
    | some schemas => exact (inComponents.orEmptyMap empty).of_member? found
  exact inSchemas.orEmptyMap empty

/-- A well-formed description with inline parameters has a catalog or is refused. -/
theorem failsAsDeclared_catalog
    (wellFormed : IsWellFormed StatesParameter description definitions) :
    FailsAsDeclared (catalog (.map description)).outcome := by
  have keys := Datum.eachMap_of_isJson wellFormed.json
  have keysOfDefinitions :=
    eachMap_definitions keys (List.forall_mem_nil _) wellFormed.defined
  rw [catalog, wellFormed.defined]
  apply Catalog.failsAsDeclared_build keysOfDefinitions
  · exact keys.of_getD _ (.map (List.forall_mem_nil _) (List.forall_mem_nil _))
  · have optional := wellFormed.paths
    rw [Entries.held] at optional
    cases found : Entries.get? (.str "paths") description with
    | none => exact fun present => by cases present
    | some value =>
      rw [found] at optional
      exact optional

end Document

namespace CommandLine

/-- A command goes on with the catalog of what is loaded, or cannot load it. -/
theorem withCatalog_of_load
    {surroundings : Surroundings} {source : String}
    {command : Catalog → Report} {description : Datum}
    {loaded : Document.Loaded}
    (load :
      Document.load surroundings.files (surroundings.reply 0) source = loaded)
    (success : loaded.outcome = .ok description)
    (declared : FailsAsDeclared (Document.catalog description).outcome) :
    (∃ catalog, (Document.catalog description).outcome = .ok catalog ∧
        withCatalog surroundings source command =
          (command catalog).after loaded.events
            (Document.catalog description).notices) ∨
      ∃ fault, (Document.catalog description).outcome = .error fault ∧
        fault.IsDeclared ∧
        withCatalog surroundings source command =
          (Report.failure
              ("Cannot load " ++ source ++ ": " ++ fault.message)).after
            loaded.events (Document.catalog description).notices := by
  rw [withCatalog, load, loadedCatalog, success]
  dsimp only
  cases outcome : (Document.catalog description).outcome with
  | ok catalog => exact Or.inl ⟨catalog, rfl, rfl⟩
  | error fault =>
    have expected : isLoadingFault fault = true := by
      rw [isLoadingFault, Bool.or_eq_true, Bool.or_eq_true]
      exact Or.inl (declared fault outcome)
    refine Or.inr ⟨fault, rfl, declared fault outcome, ?_⟩
    dsimp only
    rw [Report.ofFault, if_pos expected]

end CommandLine

namespace Document

/--
A well-formed description whose parameters are given inline has a catalog, or
is refused with one of the library's own faults or because a value in it
cannot be read.  So every command to which such a description is loaded goes
on with the catalog, or fails and says that it cannot load the source.
-/
theorem catalog_ends_as_declared
    {description definitions : Entries}
    (wellFormed : IsWellFormed StatesParameter description definitions) :
    ((∃ endpoints, (catalog (.map description)).outcome = .ok endpoints) ∨
        ∃ fault, (catalog (.map description)).outcome = .error fault ∧
          fault.IsDeclared) ∧
      ∀ (surroundings : CommandLine.Surroundings) (source : String)
          (command : Catalog → CommandLine.Report) (loaded : Loaded),
        load surroundings.files (surroundings.reply 0) source = loaded →
          loaded.outcome = .ok (.map description) →
            (∃ endpoints,
                (catalog (.map description)).outcome = .ok endpoints ∧
                  CommandLine.withCatalog surroundings source command =
                    (command endpoints).after loaded.events
                      (catalog (.map description)).notices) ∨
              ∃ fault,
                (catalog (.map description)).outcome = .error fault ∧
                  fault.IsDeclared ∧
                  CommandLine.withCatalog surroundings source command =
                    (CommandLine.Report.failure
                        ("Cannot load " ++ source ++ ": " ++
                          fault.message)).after
                      loaded.events (catalog (.map description)).notices := by
  have declared := failsAsDeclared_catalog wellFormed
  constructor
  · cases outcome : (catalog (.map description)).outcome with
    | ok endpoints => exact Or.inl ⟨endpoints, rfl⟩
    | error fault => exact Or.inr ⟨fault, rfl, declared fault outcome⟩
  · intro surroundings source command loaded load success
    exact CommandLine.withCatalog_of_load load success declared

/-! ## A description of rows -/

/-- A text, and rows that have one as their name. -/
def rowDefinitions : Entries :=
  Fields.toEntries
    [("Name", .object [("type", .str "string")]),
      ("Row",
        .object
          [("type", .str "object"),
            ("properties", .object [("name", Schema.referring "Name")])])]

/-- Content in one media type, whose values are rows. -/
def rowContent (mediaType : String) : Datum :=
  .object [(mediaType, .object [("schema", Schema.referring "Row")])]

/-- Asks for rows by a row, and answers with a stream of rows. -/
def rowOperation (parameter : Entries) : Entries :=
  Fields.toEntries
    [("operationId", .str "findRows"),
      ("parameters", .list [.map parameter]),
      ("requestBody", .object [("content", rowContent "application/json")]),
      ("responses",
        .object
          [("200",
            .object [("content", rowContent "application/x-ndjson")])])]

/-- The number of rows, as a parameter that operations share. -/
def limitParameter : Entries :=
  Fields.toEntries
    [("name", .str "limit"), ("in", .str "query"),
      ("schema", .object [("type", .str "integer")])]

/-- The description of that operation, given its parameter. -/
def rowDescription (parameter : Entries) : Entries :=
  Fields.toEntries
    [("openapi", .str "3.1.0"),
      ("components",
        .object
          [("schemas", .map rowDefinitions),
            ("parameters", .object [("Limit", .map limitParameter)])]),
      ("paths",
        .object
          [("/rows", .object [("post", .map (rowOperation parameter))])])]

theorem isReadable_row :
    Schema.IsReadable (.map rowDefinitions) (Schema.referring "Row") :=
  Schema.isReadable_of_isSound (by decide +kernel) (by decide +kernel)
    (by decide +kernel)

theorem isMessage_row (mediaType : String) :
    Operation.IsMessage (.map rowDefinitions)
      (Fields.toEntries [("content", rowContent mediaType)]) := by
  intro _
  refine ⟨_, rfl, List.forall_mem_singleton.2 ?_⟩
  intro _
  exact ⟨_, rfl, isReadable_row⟩

/-- The description is well formed if its parameter may stand there. -/
theorem isWellFormed_rowDescription
    {isParameter : Entries → Prop} {parameter : Entries}
    (allowed : isParameter parameter)
    (readable :
      Schema.IsReadable (.map rowDefinitions) (statedSchema parameter))
    (json : Datum.isJson (.map (rowDescription parameter)) = true) :
    IsWellFormed isParameter (rowDescription parameter) rowDefinitions := by
  have operation :
      Operation.IsWellFormed isParameter (.map rowDefinitions)
        (rowOperation parameter) := by
    constructor
    · exact fun _ => ⟨"findRows", rfl⟩
    · refine ⟨_, rfl, List.forall_mem_singleton.2 ?_⟩
      exact ⟨parameter, rfl, allowed, readable⟩
    · exact fun _ => ⟨_, rfl, isMessage_row _⟩
    · intro _
      refine ⟨_, rfl, List.forall_mem_singleton.2 ?_⟩
      exact fun _ => ⟨_, rfl, isMessage_row _⟩
  refine ⟨json, rfl, rfl, ?_⟩
  intro _
  refine ⟨_, rfl, List.forall_mem_singleton.2 ?_⟩
  intro _
  refine ⟨_, rfl, ⟨?_, List.forall_mem_singleton.2 ?_⟩⟩
  · intro present
    cases present
  · exact fun _ => ⟨_, rfl, operation⟩

theorem isWellFormed_rowDescription_limit :
    IsWellFormed StatesParameter (rowDescription limitParameter)
      rowDefinitions := by
  have states : StatesParameter limitParameter :=
    ⟨⟨.str "limit", rfl⟩, ⟨.str "query", rfl⟩⟩
  apply isWellFormed_rowDescription states
  · exact
      Schema.isReadable_of_isSound (by decide +kernel) (by decide +kernel)
        (by decide +kernel)
  · decide +kernel

/-- The description of an operation without parameters and responses. -/
def pingDescription : Entries :=
  Fields.toEntries
    [("openapi", .str "3.1.0"),
      ("paths",
        .object
          [("/ping", .object [("get", .object [("operationId", .str "ping")])])])]

theorem isWellFormed_pingDescription :
    IsWellFormed StatesParameter pingDescription [] := by
  have operation :
      Operation.IsWellFormed StatesParameter (.map [])
        (Fields.toEntries [("operationId", .str "ping")]) := by
    constructor
    · exact fun _ => ⟨"ping", rfl⟩
    · exact ⟨[], rfl, List.forall_mem_nil _⟩
    · exact Datum.isOptionalMap_null _
    · exact Datum.isOptionalMap_null _
  refine ⟨by decide +kernel, rfl, rfl, ?_⟩
  intro _
  refine ⟨_, rfl, List.forall_mem_singleton.2 ?_⟩
  intro _
  refine ⟨_, rfl, ⟨?_, List.forall_mem_singleton.2 ?_⟩⟩
  · intro present
    cases present
  · exact fun _ => ⟨_, rfl, operation⟩

/-- The endpoint of that operation. -/
def pingEndpoint : Endpoint :=
  { operationId := "ping"
    methodName := "ping"
    title := "ping"
    method := "GET"
    path := "/ping"
    parameters := []
    responses := []
    streaming := false
    tags := [] }

/-- A directory that holds that description. -/
def pingSurroundings : CommandLine.Surroundings :=
  { settings := .standard
    files :=
      Files.ofList
        [("ping.yaml",
          Text.utf8Bytes
            ("openapi: 3.1.0\npaths:\n /ping:\n  get:\n" ++
              "   operationId: ping\n"))]
    reply := fun _ => .error .streamUnavailable }

/-- The rows have a catalog, and the one operation is listed from its file. -/
theorem catalog_ends_as_declared_rows :
    (∃ endpoints,
        (catalog (.map (rowDescription limitParameter))).outcome =
          .ok endpoints) ∧
      CommandLine.withCatalog pingSurroundings "ping.yaml"
          (CommandLine.listEndpoints none) =
        .lines ["ping\tGET /ping\tping", "Found 1 endpoints."] := by
  constructor
  · rcases (catalog_ends_as_declared isWellFormed_rowDescription_limit).1 with
      built | ⟨fault, failed, -⟩
    · exact built
    · have built :
          (catalog
            (.map (rowDescription limitParameter))).outcome.isOk = true := by
        decide +kernel
      rw [failed] at built
      cases built
  · have loaded :
        load pingSurroundings.files (pingSurroundings.reply 0) "ping.yaml" =
          ⟨[], .ok (.map pingDescription)⟩ := by
      rw [load, if_neg (by decide +kernel)]
      congr 1
      decide +kernel
    have built :
        (catalog (.map pingDescription)).outcome =
          .ok [("ping", pingEndpoint)] := by
      decide +kernel
    rcases
      (catalog_ends_as_declared isWellFormed_pingDescription).2
        pingSurroundings "ping.yaml" (CommandLine.listEndpoints none) _ loaded
        rfl with
      ⟨endpoints, found, same⟩ | ⟨fault, failed, -⟩
    · cases built.symm.trans found
      rw [same]
      decide +kernel
    · cases built.symm.trans failed

/-- The same rows, with their parameter given by reference. -/
def limitReference : Entries :=
  Fields.toEntries
    [(Schema.referenceMember, .str (Operation.parameterFront ++ "Limit"))]

theorem outcome_rowDescription_limitReference :
    (catalog (.map (rowDescription limitReference))).outcome =
      .error (.misuse .missingKey) := by
  decide +kernel

/--
A reference to a parameter of the description ends in a failure that is not
declared, though all else is well formed.
-/
theorem not_forall_catalog_ends_as_declared :
    ¬ ∀ description definitions : Entries,
        IsWellFormed
            (fun parameter =>
              StatesParameter parameter ∨ RefersToParameter parameter)
            description definitions →
          FailsAsDeclared (catalog (.map description)).outcome := by
  intro declared
  have wellFormed :
      IsWellFormed
        (fun parameter =>
          StatesParameter parameter ∨ RefersToParameter parameter)
        (rowDescription limitReference) rowDefinitions :=
    isWellFormed_rowDescription (Or.inr ⟨"Limit", rfl⟩)
      (Schema.isReadable_empty _) (by decide +kernel)
  rcases declared _ _ wellFormed _ outcome_rowDescription_limitReference with
    own | unreadable
  · cases own
  · cases unreadable

end Document

end ApiAtlas
