import ApiAtlas.Proofs.Endpoint.Merging
import ApiAtlas.Proofs.Request.Held

/-!
# Parameters of one identity

A value of a request belongs to a parameter by its location and its name, but
parameters are put together by the place and the name as they are stated.  A
parameter that states no place belongs to the query, like one that states it;
the two are kept side by side.

So the parameters of an endpoint have different identities exactly if those
that mean one identity state it alike.  Then an own parameter is the only one
of its identity that is kept.
-/

namespace ApiAtlas

open Request (identity)

theorem Location.eq_of_ofName?
    {text : String} {location : Location}
    (found : ofName? text = some location) : text = location.name := by
  rw [ofName?] at found
  have named := List.find?_some found
  exact (beq_iff_eq.1 named).symm

namespace Operation

/-- The location and the name that a stated parameter means. -/
def meaning? (entries : Entries) : Option (Location × String) :=
  match (statedPlace entries).text?.bind Location.ofName?,
    Checked.readText (entries.held "name") with
  | some location, .ok name => some (location, name)
  | _, _ => none

theorem of_meaning?
    {entries : Entries} {meant : Location × String}
    (means : meaning? entries = some meant) :
    statedPlace entries = .str meant.1.name ∧
      Checked.readText (entries.held "name") = .ok meant.2 := by
  rw [meaning?] at means
  split at means
  · next location name found read =>
    cases means
    rcases Option.bind_eq_some_iff.1 found with ⟨text, isText, named⟩
    rw [Datum.eq_str_of_text? isText, Location.eq_of_ofName? named]
    exact ⟨rfl, read⟩
  · cases means

/-- A parameter of an endpoint has the identity that has been meant. -/
theorem IsAddressParameter.meaning?_eq
    {definitions : Datum} {entries : Entries} {parameter : Parameter}
    (made : IsAddressParameter definitions entries parameter) :
    meaning? entries = some (identity parameter) := by
  rw [meaning?, made.place, made.name]
  dsimp only [Datum.text?, Option.bind_some]
  rw [Location.ofName?_name]
  rfl

/-- Parameters that state one key mean one identity. -/
theorem meaning?_congr
    {one other : Entries} {meant meantToo : Location × String}
    (same : statedKey one = statedKey other)
    (means : meaning? one = some meant)
    (meansToo : meaning? other = some meantToo) : meant = meantToo := by
  rcases of_meaning? means with ⟨place, name⟩
  rcases of_meaning? meansToo with ⟨placeToo, nameToo⟩
  rw [statedKey, statedKey, Prod.mk.injEq] at same
  have sameName : meant.2 = meantToo.2 := by
    rw [same.1] at name
    exact Except.ok.inj (name.symm.trans nameToo)
  have sameLocation : meant.1 = meantToo.1 := by
    rw [← Location.name_inj]
    rcases held_of_statedPlace place with ⟨absent, isQuery⟩ | stated
    · rcases held_of_statedPlace placeToo with ⟨-, isQueryToo⟩ | statedToo
      · rw [isQuery, isQueryToo]
      · rw [← same.2, absent] at statedToo
        cases statedToo
    · rcases held_of_statedPlace placeToo with ⟨absent, -⟩ | statedToo
      · rw [← same.2, stated] at absent
        cases absent
      · rw [← same.2, stated] at statedToo
        exact Scalar.str.inj (Datum.scalar.inj statedToo)
  exact Prod.ext sameLocation sameName

/-- Parameters that mean one identity state it alike. -/
def StatesAlike (operation : Operation) : Prop :=
  ∀ one ∈ operation.statedParameters, ∀ other ∈ operation.statedParameters,
    (meaning? one).isSome = true → meaning? one = meaning? other →
      statedKey one = statedKey other

instance (operation : Operation) : Decidable operation.StatesAlike :=
  inferInstanceAs (Decidable (∀ one ∈ _, ∀ other ∈ _, _ → _ → _ = _))

/-! ## Kept parameters -/

theorem IsRequestBody.inAddress_eq
    {definitions given : Datum} {method : String} {streaming : Bool}
    {parameter : Parameter}
    (isBody : IsRequestBody definitions method streaming given parameter) :
    parameter.inAddress = false := by
  rcases isBody with ⟨-, entries, -, made⟩
  have location := made.location
  cases parameter with
  | path name schema => cases streaming <;> cases location
  | query name required schema => cases streaming <;> cases location
  | _ => rfl

/-- The parameters that are kept, each under the key that it states. -/
structure Keeps
    (definitions : Datum)
    (operation : Operation)
    (kept : List ((Datum × Datum) × Parameter)) : Prop where
  keys : kept.map Prod.fst = statedKeys operation.statedParameters
  each : ∀ pair ∈ kept,
    IsLastStated definitions operation.statedParameters pair.1 pair.2

variable {definitions : Datum} {operation : Operation} {endpoint : Endpoint}

/-- The parameters of the path and the query are the kept ones. -/
theorem IsBuilt.exists_kept
    (built : IsBuilt definitions operation endpoint) :
    ∃ kept,
      Keeps definitions operation kept ∧
        endpoint.parameters.filter Parameter.inAddress =
          kept.map Prod.snd := by
  rcases built.exists_parameters with
    ⟨address, body, each, isBody, parametersEq⟩
  have inAddress : address.filter Parameter.inAddress = address := by
    rw [List.filter_eq_self]
    intro parameter member
    rcases exists_mem_of_forall₂ each member with ⟨key, -, entries, -, made⟩
    exact made.inAddress
  have noBody : body.toList.filter Parameter.inAddress = [] := by
    cases body with
    | none => rfl
    | some parameter =>
      rcases exists_of_rel_some isBody with ⟨given, -, made⟩
      rw [Option.toList_some, List.filter_cons_of_neg, List.filter_nil]
      rw [made.inAddress_eq]
      exact Bool.false_ne_true
  rcases exists_pairs_of_forall₂ each with ⟨kept, keys, rfl, eachKept⟩
  refine ⟨kept, ⟨keys, eachKept⟩, ?_⟩
  rw [parametersEq, List.filter_append, inAddress, noBody, List.append_nil]

namespace Keeps

variable {kept : List ((Datum × Datum) × Parameter)}
  {pair other : (Datum × Datum) × Parameter}

theorem nodup_keys (keeps : Keeps definitions operation kept) :
    (kept.map Prod.fst).Nodup := by
  rw [keeps.keys]
  exact nodup_statedKeys _

/-- One parameter is kept under each key. -/
theorem eq_of_key_eq
    (keeps : Keeps definitions operation kept) (isKept : pair ∈ kept)
    (isKeptToo : other ∈ kept) (same : pair.1 = other.1) : pair = other :=
  List.inj_on_of_nodup_map keeps.nodup_keys isKept isKeptToo same

/-- What is kept has been stated with its key, meaning its identity. -/
theorem exists_stated
    (keeps : Keeps definitions operation kept) (isKept : pair ∈ kept) :
    ∃ entries ∈ operation.statedParameters,
      statedKey entries = pair.1 ∧
        meaning? entries = some (identity pair.2) := by
  rcases keeps.each pair isKept with ⟨last, found, made⟩
  rcases of_lastStated? found with ⟨isStated, key⟩
  exact ⟨last, isStated, key, made.meaning?_eq⟩

/-- Under the key of what is stated stands a parameter of the identity it means. -/
theorem exists_mem
    (keeps : Keeps definitions operation kept) {entries : Entries}
    (isStated : entries ∈ operation.statedParameters)
    {meant : Location × String} (means : meaning? entries = some meant) :
    ∃ pair ∈ kept,
      pair.1 = statedKey entries ∧ identity pair.2 = meant := by
  have known : statedKey entries ∈ kept.map Prod.fst := by
    rw [keeps.keys, statedKeys, List.mem_eraseDups]
    exact List.mem_map_of_mem isStated
  rcases List.mem_map.1 known with ⟨pair, isKept, same⟩
  rcases keeps.exists_stated isKept with ⟨last, -, key, meansToo⟩
  exact
    ⟨pair, isKept, same, meaning?_congr (key.trans same) meansToo means⟩

/-- What is kept differs in identity if and only if identities are stated alike. -/
theorem nodup_identities_iff (keeps : Keeps definitions operation kept) :
    ((kept.map Prod.snd).map identity).Nodup ↔ operation.StatesAlike := by
  rw [List.map_map,
    List.nodup_map_iff_inj_on (List.Nodup.of_map Prod.fst keeps.nodup_keys)]
  constructor
  · intro apart one isOne other isOther present same
    rcases Option.isSome_iff_exists.1 present with ⟨meant, means⟩
    rcases keeps.exists_mem isOne means with ⟨pair, isKept, key, isMeant⟩
    rcases keeps.exists_mem isOther (same ▸ means) with
      ⟨pairToo, isKeptToo, keyToo, isMeantToo⟩
    have samePair : pair = pairToo :=
      apart pair isKept pairToo isKeptToo (isMeant.trans isMeantToo.symm)
    rw [← key, ← keyToo, samePair]
  · intro alike pair isKept other isKeptToo same
    rcases keeps.exists_stated isKept with ⟨one, isOne, key, means⟩
    rcases keeps.exists_stated isKeptToo with ⟨two, isTwo, keyToo, meansToo⟩
    have sameMeaning : meaning? one = meaning? two := by
      rw [means, meansToo]
      exact congrArg some same
    have sameKey : statedKey one = statedKey two :=
      alike one isOne two isTwo (means ▸ rfl) sameMeaning
    rw [key, keyToo] at sameKey
    exact keeps.eq_of_key_eq isKept isKeptToo sameKey

end Keeps

/-- The last parameter that states a key is an own one if an own one states it. -/
theorem mem_ownParameters_of_lastStated?
    {own last : Entries} (isOwn : own ∈ operation.ownParameters)
    (found :
      lastStated? (statedKey own) operation.statedParameters = some last) :
    last ∈ operation.ownParameters := by
  rcases exists_lastStated? isOwn with ⟨lastOwn, foundOwn⟩
  rw [statedParameters, lastStated?_append, foundOwn, Option.some_or] at found
  cases found
  exact (of_lastStated? foundOwn).1

/--
The parameters of the path and the query differ in location or name if and only
if the stated parameters that mean one location and name state them alike.  If
those that mean what an own parameter means state it as this one does, a single
one of them is kept, and it has been made from an own one, whatever the path
shares.
-/
theorem endpoint_parameters_apart
    (success : operation.endpoint definitions = .ok endpoint) :
    (((endpoint.parameters.filter Parameter.inAddress).map
        identity).Nodup ↔ operation.StatesAlike) ∧
      ∀ own ∈ operation.ownParameters, ∀ meant,
        meaning? own = some meant →
          (∀ other ∈ operation.statedParameters,
            meaning? other = some meant → statedKey other = statedKey own) →
          ∃ last ∈ operation.ownParameters, ∃ parameter,
            IsAddressParameter definitions last parameter ∧
              ∀ other,
                other ∈ endpoint.parameters ∧ other.inAddress = true ∧
                    identity other = meant ↔
                  other = parameter := by
  rcases (isBuilt_of_endpoint success).exists_kept with
    ⟨kept, keeps, filtered⟩
  rw [filtered]
  refine ⟨keeps.nodup_identities_iff, ?_⟩
  intro own isOwn meant means alike
  rcases keeps.exists_mem (List.mem_append_right _ isOwn) means with
    ⟨pair, isKept, key, isMeant⟩
  rcases keeps.each pair isKept with ⟨last, found, made⟩
  rw [key] at found
  refine
    ⟨last, mem_ownParameters_of_lastStated? isOwn found, pair.2, made, ?_⟩
  intro other
  rw [← and_assoc, ← List.mem_filter, filtered]
  constructor
  · rintro ⟨member, same⟩
    rcases List.mem_map.1 member with ⟨pairToo, isKeptToo, rfl⟩
    rcases keeps.exists_stated isKeptToo with
      ⟨stated, isStated, keyToo, meansToo⟩
    have sameKey := alike stated isStated (same ▸ meansToo)
    rw [keyToo, ← key] at sameKey
    rw [keeps.eq_of_key_eq isKeptToo isKept sameKey]
  · rintro rfl
    exact ⟨List.mem_map_of_mem isKept, isMeant⟩

/-- A parameter with a name, and maybe with a place and a mark. -/
def stating (name : String) (place : Option String) (required : Bool) : Datum :=
  .object
    ([("name", .str name), ("required", .bool required)] ++
      place.toList.map fun place => ("in", .str place))

/-- An operation that requires a limit, which the path states too. -/
def limitOperation (place : Option String) : Operation :=
  { path := .str "/rows"
    method := .str "get"
    content :=
      .object
        [("operationId", .str "rows"),
          ("parameters",
            .list [stating "limit" (some "query") true, stating "mark" none false])]
    shared :=
      .list [stating "limit" place false, stating "limit" (some "path") false] }

/-- The endpoint of that operation, given those parameters that come first. -/
def limitEndpoint (first rest : List Parameter) : Endpoint :=
  { operationId := "rows"
    methodName := "rows"
    title := "rows"
    method := "GET"
    path := "/rows"
    parameters :=
      first ++ .path "limit" unstatedSchema :: rest ++
        [.query "mark" false unstatedSchema]
    responses := []
    streaming := false
    tags := [] }

/-- The required limit takes the place of the shared one; that of the path stays. -/
theorem endpoint_parameters_apart_limit :
    ∃ endpoint,
      (limitOperation (some "query")).endpoint (.map []) = .ok endpoint ∧
        ((endpoint.parameters.filter Parameter.inAddress).map
          identity).Nodup ∧
        ∃ last ∈ (limitOperation (some "query")).ownParameters, ∃ parameter,
          IsAddressParameter (.map []) last parameter ∧
            ∀ other,
              other ∈ endpoint.parameters ∧ other.inAddress = true ∧
                  identity other = (.query, "limit") ↔
                other = parameter := by
  have built :
      (limitOperation (some "query")).endpoint (.map []) =
        .ok (limitEndpoint [.query "limit" true unstatedSchema] []) := by
    decide +kernel
  have apart := endpoint_parameters_apart built
  have own :
      (stating "limit" (some "query") true).entries.toOption.getD [] ∈
        (limitOperation (some "query")).ownParameters := by
    decide +kernel
  exact
    ⟨_, built, apart.1.2 (by decide +kernel),
      apart.2 _ own (.query, "limit") (by decide +kernel) (by decide +kernel)⟩

/-- A shared limit without a place stays beside the own one of the query. -/
theorem not_forall_endpoint_parameters_apart :
    ¬ ∀ (definitions : Datum) (operation : Operation) (endpoint : Endpoint),
      operation.endpoint definitions = .ok endpoint →
        ((endpoint.parameters.filter Parameter.inAddress).map
          identity).Nodup := by
  intro apart
  have built :
      (limitOperation none).endpoint (.map []) =
        .ok
          (limitEndpoint [.query "limit" false unstatedSchema]
            [.query "limit" true unstatedSchema]) := by
    decide +kernel
  have different := apart _ _ _ built
  revert different
  decide +kernel

end Operation

end ApiAtlas
