import ApiAtlas.Endpoint.Catalog
import ApiAtlas.Proofs.Data.Access
import ApiAtlas.Proofs.Data.Named
import ApiAtlas.Proofs.Occurrence
import ApiAtlas.Proofs.Outcome

/-!
# Operations that overwrite others

A catalog has one endpoint for each name of an operation, at the place where
the name first occurs, and the endpoint is that of the last operation of the
name.  Each operation whose name an earlier one has already is noticed, so that
endpoints and notices together are as many as the operations.
-/

namespace ApiAtlas

namespace Operation

/-! ## Names of operations -/

/-- The name that an operation states, if it counts as present. -/
def statedId? (operation : Operation) : Option Datum :=
  (operation.content.field? "operationId").filter Datum.isTruthy

/-- The stated name of an operation, or else the one made of its method and path. -/
def idText (operation : Operation) : String :=
  match operation.statedId? with
  | some stated => stated.plain
  | none =>
    Naming.derivedId (Text.toCapital operation.method.plain)
      operation.path.plain

variable {definitions : Datum} {operation : Operation} {endpoint : Endpoint}

/-- An operation becomes an endpoint only if it has a method and a name. -/
theorem exists_of_endpoint
    (success : operation.endpoint definitions = .ok endpoint) :
    ∃ method,
      httpMethod operation.method = .ok method ∧
        operationId operation.content method operation.path =
          .ok (.str endpoint.operationId) := by
  rw [Operation.endpoint] at success
  rcases exists_of_bind_eq_ok success with ⟨method, isMethod, success⟩
  rcases exists_of_bind_eq_ok success with ⟨stated, isId, success⟩
  rcases exists_of_bind_eq_ok success with ⟨entries, -, success⟩
  rcases exists_of_bind_eq_ok success with ⟨merged, -, success⟩
  rcases exists_of_bind_eq_ok success with ⟨address, -, success⟩
  rcases exists_of_bind_eq_ok success with ⟨listed, -, success⟩
  rcases exists_of_bind_eq_ok success with ⟨bodies, -, success⟩
  refine ⟨method, isMethod, ?_⟩
  rw [isId]
  dsimp only at success
  split at success
  · split at success
    · cases success
    · rcases exists_of_bind_eq_ok success with ⟨body, -, success⟩
      simp only [pure_bind] at success
      split at success
      · rcases exists_of_bind_eq_ok success with ⟨texts, -, same⟩
        cases same
        rfl
      · cases success
  · simp only [pure_bind] at success
    split at success
    · rcases exists_of_bind_eq_ok success with ⟨texts, -, same⟩
      cases same
      rfl
    · cases success

theorem eq_str_of_httpMethod
    {key : Scalar} {method : String} (success : httpMethod key = .ok method) :
    ∃ text, key = .str text ∧ method = Text.toCapital text := by
  cases key with
  | str text =>
    rw [httpMethod, Naming.method] at success
    split at success
    · exact ⟨text, rfl, (Except.ok.inj success).symm⟩
    · cases success
  | _ => cases success

theorem eq_str_of_derivedId
    {path : Scalar} {method name : String}
    (success : derivedId method path = .ok name) :
    ∃ text, path = .str text ∧ name = Naming.derivedId method text := by
  cases path with
  | str text => exact ⟨text, rfl, (Except.ok.inj success).symm⟩
  | _ => cases success

/-- An endpoint has the name of its operation. -/
theorem operationId_of_endpoint
    (success : operation.endpoint definitions = .ok endpoint) :
    endpoint.operationId = operation.idText := by
  rcases exists_of_endpoint success with ⟨method, isMethod, named⟩
  rw [operationId] at named
  rcases exists_of_bind_eq_ok named with ⟨found, looked, named⟩
  rcases Datum.exists_of_member? looked with ⟨entries, isMap, rfl⟩
  rw [idText, statedId?, isMap, Datum.field?]
  cases stated :
      (Entries.get? (.str "operationId") entries).filter Datum.isTruthy with
  | some value =>
    rw [stated] at named
    cases named
    rfl
  | none =>
    rw [stated] at named
    rcases exists_of_bind_eq_ok named with ⟨name, derived, same⟩
    rcases eq_str_of_httpMethod isMethod with ⟨methodText, methodIs, rfl⟩
    rcases eq_str_of_derivedId derived with ⟨pathText, pathIs, nameIs⟩
    have idEq : name = endpoint.operationId :=
      Scalar.str.inj (Datum.scalar.inj (Except.ok.inj same))
    rw [← idEq, nameIs, methodIs, pathIs]
    dsimp only [Scalar.plain]

/-! ## Operations of one name -/

/-- The names of operations, in order of first occurrence. -/
def names (operations : List Operation) : List String :=
  (operations.map idText).eraseDups

/-- The operations that overwrite one of the same name before them. -/
def overwriting (operations : List Operation) : List Operation :=
  repeated idText operations

/-- The last operation of a name in a list. -/
def IsLastNamed
    (name : String) (operations : List Operation) (operation : Operation) :
    Prop :=
  ∃ before behind,
    operations = before ++ operation :: behind ∧
      operation.idText = name ∧ ∀ other ∈ behind, other.idText ≠ name

theorem isLastNamed_concat (operations : List Operation) (last : Operation) :
    IsLastNamed last.idText (operations ++ [last]) last :=
  ⟨operations, [], rfl, rfl, List.forall_mem_nil _⟩

/-- An operation of another name behind it leaves an operation the last one. -/
theorem IsLastNamed.concat
    {name : String} {operations : List Operation} {other : Operation}
    (isLast : IsLastNamed name operations operation)
    (different : other.idText ≠ name) :
    IsLastNamed name (operations ++ [other]) operation := by
  rcases isLast with ⟨before, behind, rfl, named, unnamed⟩
  refine ⟨before, behind ++ [other], ?_, named, ?_⟩
  · rw [List.append_assoc, List.cons_append]
  · exact
      List.forall_mem_append.2 ⟨unnamed, List.forall_mem_singleton.2 different⟩

end Operation

namespace Catalog

open Operation (IsLastNamed)

/-! ## Operations of a description -/

/-- The operations that a path item holds. -/
def operationsOfItem (path : Scalar) (item : Entries) : List Operation :=
  (item.filter fun entry => isOperationKey entry.1).map fun entry =>
    ⟨path, entry.1, entry.2,
      (Entries.get? (.str "parameters") item).getD (.list [])⟩

/-- The operations that the items of paths hold, in the order of the description. -/
def operationsOf (paths : Datum) : List Operation :=
  paths.members.flatMap fun path =>
    operationsOfItem path.1 path.2.members

theorem pathOperations_eq
    {path : Scalar} {item : Datum}
    (readable : ∀ fault, .error fault ∉ pathOperations path item) :
    pathOperations path item =
      (operationsOfItem path item.members).map .ok := by
  rw [pathOperations] at readable ⊢
  split
  · next present =>
    cases item with
    | map entries => rfl
    | _ =>
      rw [if_pos present] at readable
      exact (readable _ (List.mem_singleton_self _)).elim
  · next absent =>
    cases item with
    | map entries =>
      cases entries with
      | nil => rfl
      | cons entry rest => exact (absent rfl).elim
    | _ => rfl

/-- Without a fault among them, the operations are those that the items hold. -/
theorem operations_eq
    {paths : Datum} (readable : ∀ fault, .error fault ∉ operations paths) :
    operations paths = (operationsOf paths).map .ok := by
  rw [operations] at readable ⊢
  cases found : paths.orEmptyMap.entries with
  | error fault =>
    rw [found] at readable
    exact (readable fault (List.mem_singleton_self _)).elim
  | ok entries =>
    rw [found] at readable
    rw [operationsOf, Datum.members_of_orEmptyMap found, List.map_flatMap]
    refine List.flatMap_congr fun path isPath => pathOperations_eq ?_
    intro fault within
    exact readable fault (List.mem_flatMap.2 ⟨path, isPath, within⟩)

/-! ## The catalog of a list of operations -/

/-- The notice that an operation has overwritten another. -/
def IsNoticeOf
    (definitions : Datum) (operation : Operation) (notice : Notice) : Prop :=
  ∃ endpoint,
    operation.endpoint definitions = .ok endpoint ∧
      notice = ⟨endpoint.operationId, endpoint.method, endpoint.path⟩

/--
A catalog with the endpoint of the last operation of each name, where the name
first occurs, and the notices of the operations that have overwritten others.
-/
structure IsCatalogOf
    (definitions : Datum)
    (operations : List Operation)
    (notices : List Notice)
    (catalog : Catalog) : Prop where
  names : catalog.map Prod.fst = Operation.names operations
  endpoints :
    ∀ entry ∈ catalog,
      entry.2.operationId = entry.1 ∧
        ∃ operation,
          IsLastNamed entry.1 operations operation ∧
            operation.endpoint definitions = .ok entry.2
  notices :
    List.Forall₂ (IsNoticeOf definitions) (Operation.overwriting operations)
      notices

variable {definitions : Datum} {operations : List Operation}
  {notices : List Notice} {catalog : Catalog} {operation : Operation}
  {endpoint : Endpoint}

theorem has_iff {name : String} :
    has name catalog = true ↔ name ∈ catalog.map Prod.fst := by
  rw [has, find?, Option.isSome_map, List.find?_isSome, List.mem_map]
  simp only [beq_iff_eq]

theorem isCatalogOf_nil : IsCatalogOf definitions [] [] [] :=
  ⟨rfl, List.forall_mem_nil _, .nil⟩

namespace IsCatalogOf

theorem mem_keys_iff
    (isCatalog : IsCatalogOf definitions operations notices catalog)
    {name : String} :
    name ∈ catalog.map Prod.fst ↔ name ∈ operations.map Operation.idText := by
  rw [isCatalog.names, Operation.names, List.mem_eraseDups]

theorem nodup_keys
    (isCatalog : IsCatalogOf definitions operations notices catalog) :
    (catalog.map Prod.fst).Nodup := by
  rw [isCatalog.names]
  exact nodup_eraseDups _

/-- Each operation has an endpoint in the catalog or a notice. -/
theorem length_notices_add_length
    (isCatalog : IsCatalogOf definitions operations notices catalog) :
    notices.length + catalog.length = operations.length := by
  rw [← isCatalog.notices.length_eq, ← List.length_map Prod.fst,
    isCatalog.names]
  exact length_repeated_add_length_eraseDups Operation.idText operations

/-- The endpoint of one more operation is put under its name. -/
theorem put
    (isCatalog : IsCatalogOf definitions operations notices catalog)
    (success : operation.endpoint definitions = .ok endpoint) :
    IsCatalogOf definitions (operations ++ [operation])
      (notices ++
        if has endpoint.operationId catalog then
          [⟨endpoint.operationId, endpoint.method, endpoint.path⟩]
        else [])
      (put endpoint catalog) := by
  have named := Operation.operationId_of_endpoint success
  have hasIff : has endpoint.operationId catalog = true ↔
      operation.idText ∈ operations.map Operation.idText := by
    rw [← named, ← isCatalog.mem_keys_iff, has_iff]
  refine ⟨?_, ?_, ?_⟩
  · have keys := isCatalog.names
    rw [Catalog.put, Operation.names, List.map_append, List.map_singleton]
    by_cases known : operation.idText ∈ operations.map Operation.idText
    · rw [eraseDups_concat_of_mem known, ← Operation.names, ← keys]
      apply Named.keys_put_of_mem
      rwa [named, isCatalog.mem_keys_iff]
    · rw [eraseDups_concat_of_notMem known, ← Operation.names, ← keys,
        Named.put_of_notMem, List.map_append, named]
      · rfl
      · rwa [named, isCatalog.mem_keys_iff]
  · intro entry member
    rcases Named.eq_or_ne_of_mem_put isCatalog.nodup_keys member with
      rfl | ⟨before, different⟩
    · refine ⟨rfl, operation, ?_, success⟩
      rw [named]
      exact Operation.isLastNamed_concat operations operation
    · rcases isCatalog.endpoints entry before with ⟨same, last, isLast, made⟩
      refine ⟨same, last, isLast.concat ?_, made⟩
      rw [← named]
      exact different.symm
  · rw [Operation.overwriting, repeated_concat, ← Operation.overwriting]
    refine List.rel_append isCatalog.notices ?_
    by_cases known : operation.idText ∈ operations.map Operation.idText
    · rw [if_pos known, if_pos (hasIff.2 known)]
      exact .cons ⟨endpoint, success, rfl⟩ .nil
    · rw [if_neg known, if_neg (mt hasIff.1 known)]
      exact .nil

end IsCatalogOf

/-- Endpoints that are added one by one make the catalog of all operations. -/
theorem isCatalogOf_addAll
    (isCatalog : IsCatalogOf definitions operations notices catalog)
    {added : List (Except Fault Operation)} {result : Catalog}
    (success : (addAll definitions catalog added).outcome = .ok result) :
    ∃ behind : List Operation,
      added = behind.map .ok ∧
        IsCatalogOf definitions (operations ++ behind)
          (notices ++ (addAll definitions catalog added).notices) result := by
  induction added generalizing operations notices catalog with
  | nil =>
    cases success
    refine ⟨[], rfl, ?_⟩
    rw [List.append_nil]
    exact (List.append_nil notices).symm ▸ isCatalog
  | cons outcome rest ih =>
    rw [addAll] at success ⊢
    cases made : outcome.bind (Operation.endpoint definitions) with
    | error fault =>
      rw [made] at success
      cases success
    | ok endpoint =>
      rw [made] at success
      dsimp only at success ⊢
      rcases exists_of_bind_eq_ok made with ⟨operation, rfl, isMade⟩
      have next := isCatalog.put isMade
      split at success
      · next known =>
        rw [if_pos known] at next ⊢
        rcases ih next success with ⟨behind, rfl, whole⟩
        refine ⟨operation :: behind, rfl, ?_⟩
        rwa [List.append_assoc, List.append_assoc] at whole
      · next new =>
        rw [if_neg new] at next ⊢
        rcases ih next success with ⟨behind, rfl, whole⟩
        refine ⟨operation :: behind, rfl, ?_⟩
        rwa [List.append_assoc, List.append_nil] at whole

theorem error_notMem_of_eq_map_ok
    {added : List (Except Fault Operation)} {behind : List Operation}
    (same : added = behind.map .ok) (fault : Fault) :
    .error fault ∉ added := by
  rw [same, List.mem_map]
  rintro ⟨operation, -, different⟩
  cases different

/-- What is found under the name of an operation is the last one of the name. -/
theorem IsCatalogOf.exists_find?
    (isCatalog : IsCatalogOf definitions operations notices catalog)
    (member : operation ∈ operations) :
    ∃ last endpoint,
      catalog.find? operation.idText = some endpoint ∧
        IsLastNamed operation.idText operations last ∧
        last.endpoint definitions = .ok endpoint ∧
        endpoint.operationId = operation.idText := by
  have present := isCatalog.mem_keys_iff.2 (List.mem_map_of_mem member)
  rw [← has_iff, has, Option.isSome_iff_exists] at present
  rcases present with ⟨endpoint, found⟩
  rw [find?, Option.map_eq_some_iff] at found
  rcases found with ⟨entry, first, rfl⟩
  have named := List.find?_some first
  rw [beq_iff_eq] at named
  rcases isCatalog.endpoints entry (List.mem_of_find?_eq_some first) with
    ⟨same, last, isLast, made⟩
  rw [named] at same isLast
  refine ⟨last, entry.2, ?_, isLast, made, same⟩
  rw [find?, first, Option.map_some]

/--
The catalog of a description has the names of the operations in order of first
occurrence, and under each name the endpoint of the last operation of the name;
every operation that overwrites an earlier one is noticed, so that no operation
is without an endpoint or a notice.
-/
theorem build_isCatalogOf
    {paths definitions : Datum} {catalog : Catalog}
    (success : (build paths definitions).outcome = .ok catalog) :
    IsCatalogOf definitions (operationsOf paths)
        (build paths definitions).notices catalog ∧
      (∀ operation ∈ operationsOf paths, ∃ last endpoint,
        catalog.find? operation.idText = some endpoint ∧
          IsLastNamed operation.idText (operationsOf paths) last ∧
          last.endpoint definitions = .ok endpoint ∧
          endpoint.operationId = operation.idText) ∧
      (build paths definitions).notices.length + catalog.length =
        (operationsOf paths).length := by
  rcases isCatalogOf_addAll isCatalogOf_nil success with
    ⟨behind, added, isCatalog⟩
  rw [operations_eq (error_notMem_of_eq_map_ok added)] at added
  have same : operationsOf paths = behind :=
    List.map_injective_iff.2 (fun _ _ => Except.ok.inj) added
  rw [List.nil_append, List.nil_append, ← same] at isCatalog
  exact
    ⟨isCatalog, fun _ => isCatalog.exists_find?,
      isCatalog.length_notices_add_length⟩

/-- Paths three of whose four operations have one name, the last one stating none. -/
def rowsPaths : Datum :=
  .object
    [("/rows",
        .object
          [("summary", .str "Rows"),
            ("get", .object [("operationId", .str "more_get")]),
            ("post", .object [])]),
      ("/none", .object []),
      ("/more/",
        .object
          [("trace", .object [("operationId", .str "more_get")]),
            ("get", .object [])])]

/-- An endpoint of a name, a method and a path, and nothing else. -/
def bareEndpoint (name method path : String) : Endpoint :=
  { operationId := name
    methodName := Naming.camel name
    title := name
    method := method
    path := path
    parameters := []
    responses := []
    streaming := false
    tags := [] }

/-- Four operations make two endpoints and two notices. -/
theorem build_isCatalogOf_rows :
    (build rowsPaths (.map [])).outcome =
        .ok
          [("more_get", bareEndpoint "more_get" "GET" "/more/"),
            ("rows_post", bareEndpoint "rows_post" "POST" "/rows")] ∧
      (operationsOf rowsPaths).length = 4 ∧
      (build rowsPaths (.map [])).notices.length = 2 := by
  have built :
      (build rowsPaths (.map [])).outcome =
        .ok
          [("more_get", bareEndpoint "more_get" "GET" "/more/"),
            ("rows_post", bareEndpoint "rows_post" "POST" "/rows")] := by
    decide +kernel
  have four : (operationsOf rowsPaths).length = 4 := by decide +kernel
  have count := (build_isCatalogOf built).2.2
  rw [four] at count
  exact ⟨built, four, Nat.add_right_cancel count⟩

end Catalog

end ApiAtlas
