import ApiAtlas.Proofs.Endpoint.Overwriting
import ApiAtlas.Proofs.Related
import ApiAtlas.Proofs.Text.Parts

/-!
# Names that are derived

An operation that states no name is given one made of its path and its method.
The method can be read off the end of the name, but of the path only its words
are kept: slashes at the ends and braces are left out, and a slash within the
path is an underscore.  So two derived names are equal exactly if the methods
are and the paths keep the same words.

A catalog of operations without names has an endpoint for each of them exactly
if no two of them are alike in this sense.
-/

namespace ApiAtlas

namespace Naming

/-- What is left of a path in a derived name. -/
def keptWords (path : String) : String :=
  let words := String.ofList (pathWords path.toList)
  if words = "" then "root" else words

theorem derivedId_eq (method path : String) :
    derivedId method path = keptWords path ++ "_" ++ Text.toSmall method :=
  rfl

/-- The small forms of methods are words. -/
theorem underscore_notMem_toSmall :
    ∀ method ∈ methods, '_' ∉ (Text.toSmall method).toList := by
  decide +kernel

theorem toSmall_inj_of_method :
    ∀ method ∈ methods, ∀ other ∈ methods,
      Text.toSmall method = Text.toSmall other → method = other := by
  decide +kernel

/-- A derived name tells the method and the kept words apart. -/
theorem derivedId_eq_iff
    {method other path otherPath : String} (isMethod : method ∈ methods)
    (isOther : other ∈ methods) :
    derivedId method path = derivedId other otherPath ↔
      method = other ∧ keptWords path = keptWords otherPath := by
  have shape (method path : String) :
      (derivedId method path).toList =
        (keptWords path).toList ++ '_' :: (Text.toSmall method).toList := by
    rw [derivedId_eq, String.toList_append, String.toList_append,
      List.append_assoc]
    rfl
  rw [← String.toList_inj, shape, shape,
    Text.append_mark_inj (underscore_notMem_toSmall method isMethod)
      (underscore_notMem_toSmall other isOther),
    String.toList_inj, String.toList_inj]
  constructor
  · rintro ⟨words, small⟩
    exact ⟨toSmall_inj_of_method method isMethod other isOther small, words⟩
  · rintro ⟨rfl, words⟩
    exact ⟨words, rfl⟩

end Naming

namespace Operation

/-- Operations of one method whose paths keep the same words. -/
def IsAlike (one other : Operation) : Prop :=
  Text.toCapital one.method.plain = Text.toCapital other.method.plain ∧
    Naming.keptWords one.path.plain = Naming.keptWords other.path.plain

instance : DecidableRel IsAlike := fun one other =>
  inferInstanceAs
    (Decidable
      (Text.toCapital one.method.plain = Text.toCapital other.method.plain ∧
        Naming.keptWords one.path.plain =
          Naming.keptWords other.path.plain))

variable {definitions : Datum} {operation one other : Operation}
  {endpoint : Endpoint}

theorem method_mem_of_endpoint
    (success : operation.endpoint definitions = .ok endpoint) :
    Text.toCapital operation.method.plain ∈ Naming.methods := by
  rcases exists_of_endpoint success with ⟨method, isMethod, -⟩
  rcases eq_str_of_httpMethod isMethod with ⟨text, isText, rfl⟩
  rw [isText, httpMethod, Naming.method] at isMethod
  rw [isText]
  split at isMethod
  · next known => exact known
  · cases isMethod

theorem idText_of_unnamed (unnamed : operation.statedId? = none) :
    operation.idText =
      Naming.derivedId (Text.toCapital operation.method.plain)
        operation.path.plain := by
  rw [idText, unnamed]

/-- Operations without names get the same name exactly if they are alike. -/
theorem idText_eq_iff
    (unnamed : one.statedId? = none) (otherUnnamed : other.statedId? = none)
    (isMethod : Text.toCapital one.method.plain ∈ Naming.methods)
    (isOther : Text.toCapital other.method.plain ∈ Naming.methods) :
    one.idText = other.idText ↔ one.IsAlike other := by
  rw [idText_of_unnamed unnamed, idText_of_unnamed otherUnnamed,
    Naming.derivedId_eq_iff isMethod isOther]
  rfl

end Operation

namespace Catalog

variable {definitions : Datum} {operations : List Operation}
  {notices : List Notice} {catalog : Catalog}

/-- Every operation of a catalog that is built has become an endpoint. -/
theorem exists_endpoint_of_addAll
    {added : List (Except Fault Operation)} {result : Catalog}
    (success : (addAll definitions catalog added).outcome = .ok result)
    {operation : Operation} (member : .ok operation ∈ added) :
    ∃ endpoint, operation.endpoint definitions = .ok endpoint := by
  induction added generalizing catalog with
  | nil => cases member
  | cons outcome rest ih =>
    rw [addAll] at success
    cases made : outcome.bind (Operation.endpoint definitions) with
    | error fault =>
      rw [made] at success
      cases success
    | ok endpoint =>
      rw [made] at success
      rcases List.mem_cons.1 member with rfl | behind
      · exact ⟨endpoint, made⟩
      · have later :
            (addAll definitions (put endpoint catalog) rest).outcome =
              .ok result := by
          dsimp only at success
          split at success <;> exact success
        exact ih later behind

/-- A catalog with the endpoint of each operation under its name, in order. -/
def HasEach (definitions : Datum) (operations : List Operation)
    (catalog : Catalog) : Prop :=
  List.Forall₂
    (fun operation entry =>
      entry.1 = operation.idText ∧
        operation.endpoint definitions = .ok entry.2)
    operations catalog

/-- Where all names are different each operation has its endpoint. -/
theorem IsCatalogOf.hasEach
    (isCatalog : IsCatalogOf definitions operations notices catalog)
    (different : (operations.map Operation.idText).Nodup) :
    HasEach definitions operations catalog := by
  have keys : catalog.map Prod.fst = operations.map Operation.idText := by
    rw [isCatalog.names, Operation.names, eraseDups_of_nodup different]
  have byName :
      List.Forall₂ (fun operation entry => entry.1 = operation.idText)
        operations catalog := by
    rw [← List.forall₂_eq_eq_eq, List.forall₂_map_left_iff,
      List.forall₂_map_right_iff] at keys
    exact keys.flip
  rcases exists_pairs_of_forall₂ byName with ⟨pairs, rfl, rfl, named⟩
  rw [HasEach, List.forall₂_map_left_iff, List.forall₂_map_right_iff,
    List.forall₂_same]
  intro pair member
  refine ⟨named pair member, ?_⟩
  rcases isCatalog.endpoints pair.2 (List.mem_map_of_mem member) with
    ⟨-, last, ⟨before, behind, whole, lastNamed, -⟩, made⟩
  have isLast : last ∈ pairs.map Prod.fst := by
    rw [whole]
    exact List.mem_append_right before List.mem_cons_self
  have same : last = pair.1 :=
    List.inj_on_of_nodup_map different isLast (List.mem_map_of_mem member)
      (lastNamed.trans (named pair member))
  rw [← same]
  exact made

/-- A catalog with an endpoint for each operation has all their names. -/
theorem HasEach.keys
    (hasEach : HasEach definitions operations catalog) :
    catalog.map Prod.fst = operations.map Operation.idText := by
  rw [← List.forall₂_eq_eq_eq, List.forall₂_map_left_iff,
    List.forall₂_map_right_iff]
  exact hasEach.flip.imp fun _ _ both => both.1

/--
Of a description whose operations state no names, two operations get the same
name exactly if they are alike.  The catalog has the endpoint of each of them,
in order, exactly if no two of them are alike; otherwise it has fewer.
-/
theorem build_hasEach_iff
    {paths definitions : Datum} {catalog : Catalog}
    (success : (build paths definitions).outcome = .ok catalog)
    (unnamed : ∀ operation ∈ operationsOf paths,
      operation.statedId? = none) :
    (∀ one ∈ operationsOf paths, ∀ other ∈ operationsOf paths,
        (one.idText = other.idText ↔ one.IsAlike other)) ∧
      (HasEach definitions (operationsOf paths) catalog ↔
        (operationsOf paths).Pairwise fun one other =>
          ¬ one.IsAlike other) ∧
      (¬ HasEach definitions (operationsOf paths) catalog →
        catalog.length < (operationsOf paths).length) := by
  rcases isCatalogOf_addAll isCatalogOf_nil success with
    ⟨behind, added, isCatalog⟩
  have readable := operations_eq (error_notMem_of_eq_map_ok added)
  rw [readable] at added
  have same : operationsOf paths = behind :=
    List.map_injective_iff.2 (fun _ _ => Except.ok.inj) added
  rw [List.nil_append, ← same] at isCatalog
  have alike : ∀ one ∈ operationsOf paths, ∀ other ∈ operationsOf paths,
      (one.idText = other.idText ↔ one.IsAlike other) := by
    have isMethod : ∀ operation ∈ operationsOf paths,
        Text.toCapital operation.method.plain ∈ Naming.methods := by
      intro operation member
      have isAdded : .ok operation ∈ Catalog.operations paths := by
        rw [readable]
        exact List.mem_map_of_mem member
      rcases exists_endpoint_of_addAll success isAdded with ⟨endpoint, made⟩
      exact Operation.method_mem_of_endpoint made
    intro one isOne other isOther
    exact
      Operation.idText_eq_iff (unnamed one isOne) (unnamed other isOther)
        (isMethod one isOne) (isMethod other isOther)
  have apart :
      ((operationsOf paths).map Operation.idText).Nodup ↔
        (operationsOf paths).Pairwise fun one other =>
          ¬ one.IsAlike other := by
    rw [List.Nodup, List.pairwise_map]
    refine List.Pairwise.iff_of_mem ?_
    intro one other isOne isOther
    exact not_congr (alike one isOne other isOther)
  have fewer (collide : ¬ ((operationsOf paths).map Operation.idText).Nodup) :
      catalog.length < (operationsOf paths).length := by
    have less := length_eraseDups_lt collide
    rwa [← Operation.names, ← isCatalog.names, List.length_map,
      List.length_map] at less
  have each :
      HasEach definitions (operationsOf paths) catalog ↔
        ((operationsOf paths).map Operation.idText).Nodup := by
    constructor
    · intro hasEach
      rw [← hasEach.keys]
      exact isCatalog.nodup_keys
    · exact isCatalog.hasEach
  refine ⟨alike, each.trans apart, ?_⟩
  intro notEach
  exact fewer (mt each.2 notEach)

/-- Two paths that keep the same words, with operations of different methods. -/
def rowPaths : Datum :=
  .object
    [("/rows/\x7bid\x7d", .object [("get", .object []), ("Post", .object [])]),
      ("/", .object [("get", .object [])]),
      ("/rows_id/", .object [("delete", .object [])])]

/-- Paths with the same words do not disturb each other under other methods. -/
theorem build_hasEach_iff_rows :
    HasEach (.map []) (operationsOf rowPaths)
      [("rows_id_get", bareEndpoint "rows_id_get" "GET" "/rows/\x7bid\x7d"),
        ("rows_id_post",
          bareEndpoint "rows_id_post" "POST" "/rows/\x7bid\x7d"),
        ("root_get", bareEndpoint "root_get" "GET" "/"),
        ("rows_id_delete",
          bareEndpoint "rows_id_delete" "DELETE" "/rows_id/")] := by
  have built :
      (build rowPaths (.map [])).outcome =
        .ok
          [("rows_id_get",
              bareEndpoint "rows_id_get" "GET" "/rows/\x7bid\x7d"),
            ("rows_id_post",
              bareEndpoint "rows_id_post" "POST" "/rows/\x7bid\x7d"),
            ("root_get", bareEndpoint "root_get" "GET" "/"),
            ("rows_id_delete",
              bareEndpoint "rows_id_delete" "DELETE" "/rows_id/")] := by
    decide +kernel
  have unnamed : ∀ operation ∈ operationsOf rowPaths,
      operation.statedId? = none := by
    decide +kernel
  exact (build_hasEach_iff built unnamed).2.1.2 (by decide +kernel)

/-- Two paths of which the one has a slash where the other has an underscore. -/
def alikePaths : Datum :=
  .object
    [("/a/b", .object [("get", .object [])]),
      ("/a_b", .object [("get", .object [])])]

/-- One of two operations with different paths is lost. -/
theorem not_forall_build_hasEach :
    ¬ ∀ (paths definitions : Datum) (catalog : Catalog),
      (build paths definitions).outcome = .ok catalog →
        (∀ operation ∈ operationsOf paths, operation.statedId? = none) →
          ((operationsOf paths).map fun operation =>
              (operation.path, Text.toCapital operation.method.plain)).Nodup →
            catalog.length = (operationsOf paths).length := by
  intro keeps
  have built :
      (build alikePaths (.map [])).outcome =
        .ok [("a_b_get", bareEndpoint "a_b_get" "GET" "/a_b")] := by
    decide +kernel
  have kept :=
    keeps alikePaths (.map []) _ built (by decide +kernel)
      (by decide +kernel)
  exact absurd kept (by decide +kernel)

end Catalog

end ApiAtlas
