import ApiAtlas.Proofs.Endpoint.Building
import ApiAtlas.Proofs.Validation.ReadBack
import ApiAtlas.Table.DisplayField

/-!
# Models and endpoints that are read back

Each model is written with all its members and is read back if the maps in it
are.  What a check has given is read back, because every map in it has been read
and has different keys; and so is an endpoint that is made from an operation,
as its schemas have been read and its responses stand under different statuses.
-/

namespace ApiAtlas

open Checked

/-! ## Filters -/

theorem Filter.Field.restores (field : Filter.Field) :
    Restores Filter.Field.read Filter.Field.toDatum field := by
  rcases field with ⟨path, type, examples⟩
  rw [Restores, toDatum, Datum.object, read, readModel, readMembers,
    required_toEntries rfl (restores_text path),
    required_toEntries rfl (restores_optionalText type),
    optional_toEntries rfl (restores_values examples)]
  rfl

theorem Filter.Expression.restores (expression : Filter.Expression) :
    Restores Filter.Expression.read Filter.Expression.toDatum expression := by
  rcases expression with ⟨path, operator, value⟩
  have operatorKept : Operator.read (.str operator.name) = .ok operator := by
    cases operator <;> rfl
  have valueKept : readAny value = .ok value := rfl
  rw [Restores, toDatum, Datum.object, read, readModel, readMembers,
    required_toEntries rfl (restores_text path),
    required_toEntries rfl operatorKept, required_toEntries rfl valueKept]
  rfl

/-! ## Parameters and responses -/

theorem Parameter.restores
    {parameter : Parameter}
    (schemaKept : Restores readObject Datum.object parameter.schema) :
    Restores Parameter.read Parameter.toDatum parameter := by
  have located {fields : Fields}
      (written : parameter.toDatum = .object fields)
      (tagged : fields.get? "location" = some (.str parameter.location.name))
      (members :
        readMembers parameter.location fields.toEntries = .ok parameter) :
      Parameter.read parameter.toDatum = .ok parameter := by
    have named :
        (Datum.str parameter.location.name).text?.bind Location.ofName? =
          some parameter.location :=
      Location.ofName?_name parameter.location
    rw [written, Datum.object, Parameter.read, Fields.get?_toEntries, tagged]
    simp only [named]
    exact inside_eq_ok_iff.2 members
  cases parameter with
  | path name schema =>
    refine located rfl rfl ?_
    have always : readAlwaysRequired (.bool true) = .ok true := rfl
    rw [location, readMembers, required_toEntries rfl (restores_text name),
      optional_toEntries rfl always, required_toEntries rfl schemaKept]
    rfl
  | query name required schema =>
    refine located rfl rfl ?_
    rw [location, readMembers, required_toEntries rfl (restores_text name),
      optional_toEntries rfl (restores_truth required),
      required_toEntries rfl schemaKept]
    rfl
  | entity name required schema =>
    refine located rfl rfl ?_
    rw [location, readMembers, required_toEntries rfl (restores_text name),
      optional_toEntries rfl (restores_truth required),
      required_toEntries rfl schemaKept]
    rfl
  | filter name required fields schema =>
    refine located rfl rfl ?_
    have fieldsKept :
        Restores (readList Filter.Field.read)
          (fun fields => .list (fields.map Filter.Field.toDatum)) fields :=
      restores_list fun field _ => field.restores
    rw [location, readMembers, required_toEntries rfl (restores_text name),
      optional_toEntries rfl (restores_truth required),
      required_toEntries rfl fieldsKept, required_toEntries rfl schemaKept]
    rfl

theorem ResponseBody.restores
    {body : ResponseBody}
    (schemaKept : Restores readObject Datum.object body.schema) :
    Restores ResponseBody.read ResponseBody.toDatum body := by
  rw [Restores, toDatum, Datum.object, read, readModel, readMembers,
    required_toEntries rfl schemaKept,
    required_toEntries rfl (restores_text body.mediaType),
    required_toEntries rfl (restores_truth body.streaming)]
  rfl

/-- The schema of a parameter that is read has been read. -/
theorem Parameter.readsBack : ReadsBack Parameter.read Parameter.toDatum := by
  intro value parameter success
  apply Parameter.restores
  have ofMembers (location : Location) {entries : Entries}
      (success : readMembers location entries = .ok parameter) :
      Restores readObject Datum.object parameter.schema := by
    cases location with
    | filter =>
      rcases exists_of_map_eq_ok success with ⟨parts, each, rfl⟩
      simp only [both_eq_ok_iff] at each
      exact readsBack_readObject.required each.2.2.2
    | _ =>
      rcases exists_of_map_eq_ok success with ⟨parts, each, rfl⟩
      simp only [both_eq_ok_iff] at each
      exact readsBack_readObject.required each.2.2
  cases value with
  | map entries =>
    rw [Parameter.read] at success
    split at success
    · cases success
    · split at success
      · next location _ => exact ofMembers location (inside_eq_ok_iff.1 success)
      · cases success
  | _ => cases success

theorem ResponseBody.readsBack :
    ReadsBack ResponseBody.read ResponseBody.toDatum := by
  intro value body success
  apply ResponseBody.restores
  cases value with
  | map entries =>
    rcases exists_of_map_eq_ok success with ⟨parts, each, rfl⟩
    simp only [both_eq_ok_iff] at each
    exact readsBack_readObject.required each.1
  | _ => cases success

/-! ## Endpoints -/

theorem Endpoint.restores
    {endpoint : Endpoint}
    (parametersKept : ∀ parameter ∈ endpoint.parameters,
      Restores Parameter.read Parameter.toDatum parameter)
    (statusesDifferent : (endpoint.responses.map Prod.fst).Nodup)
    (bodiesKept : ∀ response ∈ endpoint.responses, ∀ body ∈ response.2,
      Restores ResponseBody.read ResponseBody.toDatum body) :
    Restores Endpoint.read Endpoint.toDatum endpoint := by
  have responsesKept :
      Restores (readMapping Scalar.shown (readOptional ResponseBody.read))
        (fun responses =>
          .object
            (responses.map fun response =>
              (response.1, ResponseBody.optionalDatum response.2)))
        endpoint.responses :=
    restores_mapping statusesDifferent
      (fun response member =>
        restores_optional (fun _ => Datum.noConfusion)
          (bodiesKept response member))
      Scalar.shown
  have tagsKept :
      Restores (readList readText) (fun tags => .list (tags.map .str))
        endpoint.tags :=
    restores_list fun tag _ => restores_text tag
  rw [Restores, toDatum, toDatumWith, Datum.object, read, readModel, readMembers]
  dsimp only
  rw [required_toEntries rfl (restores_text endpoint.operationId),
    required_toEntries rfl (restores_text endpoint.methodName),
    required_toEntries rfl (restores_text endpoint.title),
    required_toEntries rfl (restores_text endpoint.method),
    required_toEntries rfl (restores_text endpoint.path),
    required_toEntries rfl (restores_list parametersKept),
    required_toEntries rfl responsesKept,
    required_toEntries rfl (restores_truth endpoint.streaming),
    required_toEntries rfl tagsKept]
  rfl

theorem Endpoint.readsBack : ReadsBack Endpoint.read Endpoint.toDatum := by
  intro value endpoint success
  cases value with
  | map entries =>
    rcases exists_of_map_eq_ok success with ⟨parts, each, rfl⟩
    simp only [both_eq_ok_iff] at each
    rcases each with ⟨-, listed, answered, -⟩
    rcases exists_of_required listed with ⟨parameters, listed⟩
    rcases exists_of_required answered with ⟨responses, answered⟩
    rcases exists_of_readMapping answered with ⟨different, eachResponse⟩
    refine Endpoint.restores ?_ different ?_
    · intro parameter member
      rcases exists_of_mem_readList listed member with ⟨part, here⟩
      exact Parameter.readsBack part parameter here
    · intro response member body present
      rcases eachResponse response member with ⟨part, here⟩
      rcases exists_of_readOptional here present with ⟨inner, here⟩
      exact ResponseBody.readsBack inner body here
  | _ => cases success

/-- A schema that has been read is read back. -/
theorem Schema.IsRead.restores
    {definitions : Datum} {entries : Entries} {schema : Fields}
    (isRead : Schema.IsRead definitions entries schema) :
    Restores readObject Datum.object schema := by
  rcases isRead with ⟨made, -, read⟩
  exact readsBack_readObject _ _ read

/-- Content that is used has a schema that has been read. -/
theorem Content.IsRead.restores
    {definitions content : Datum} {mediaType : String} {schema : Fields}
    (isRead : Content.IsRead definitions content mediaType schema) :
    Restores readObject Datum.object schema := by
  rcases isRead with ⟨types, entries, -, -, -, schemaRead⟩
  exact schemaRead.restores

/-- An endpoint that is made from an operation is read back. -/
theorem Operation.IsBuilt.restores
    {definitions : Datum} {operation : Operation} {endpoint : Endpoint}
    (built : Operation.IsBuilt definitions operation endpoint) :
    Restores Endpoint.read Endpoint.toDatum endpoint := by
  rcases built.parameters with
    ⟨stated, address, body, -, addressed, bodied, parametersEq⟩
  rcases built.responses with ⟨read, eachResponse, responsesEq⟩
  refine Endpoint.restores ?_ ?_ ?_
  · intro parameter member
    rw [parametersEq, List.mem_append, Option.mem_toList] at member
    rcases member with inAddress | isBody
    · rcases exists_mem_of_forall₂ addressed inAddress with
        ⟨entries, -, made⟩
      exact Parameter.restores made.schema.restores
    · rw [isBody] at bodied
      rcases exists_of_rel_some bodied with
        ⟨given, -, -, entries, -, made⟩
      exact Parameter.restores made.content.restores
  · rw [responsesEq]
    exact Named.nodup_keys_putAll List.nodup_nil
  · intro response member body present
    rw [responsesEq] at member
    rcases Named.mem_or_mem_of_mem_putAll member with none | isRead
    · cases none
    · rcases exists_mem_of_forall₂ eachResponse isRead with
        ⟨entry, -, -, answered⟩
      rw [present] at answered
      rcases exists_of_rel_some answered with ⟨content, -, made⟩
      exact ResponseBody.restores made.content.restores

/-! ## Display fields -/

namespace Table.DisplayField

/-- The fields inside a field are read as a member that may be absent. -/
theorem readChildren_eq (entries : Entries) :
    readChildren entries =
      optional "children" none readOptionalTree entries := by
  induction entries with
  | nil => rfl
  | cons entry rest ih =>
    rcases entry with ⟨key, value⟩
    rw [readChildren, ih, Checked.optional, Checked.optional,
      Entries.get?_cons]
    split <;> rfl

theorem readTreeEntries_treeToEntries
    {tree : DisplayTree} (kept : ∀ entry ∈ tree, Restores read toDatum entry.2) :
    readTreeEntries (treeToEntries tree) = .ok tree := by
  induction tree with
  | nil => rfl
  | cons entry rest ih =>
    rcases entry with ⟨key, field⟩
    rw [List.forall_mem_cons] at kept
    rw [treeToEntries, readTreeEntries, inside_eq_ok_iff.2 kept.1, ih kept.2]
    rfl

theorem restores_tree
    {tree : DisplayTree} (different : (tree.map Prod.fst).Nodup)
    (kept : ∀ entry ∈ tree, Restores read toDatum entry.2) :
    Restores readOptionalTree childrenToDatum (some tree) := by
  have put : Named.putAll [] tree = tree := Named.putAll_of_nodup different
  rw [Restores, childrenToDatum, readOptionalTree,
    readTreeEntries_treeToEntries kept, Except.map, put]

theorem restores
    {field : DisplayField}
    (childrenKept : Restores readOptionalTree childrenToDatum field.children) :
    Restores read toDatum field := by
  rcases field with ⟨name, kind, isKey, children⟩
  have kindKept : readKind (.str kind.name) = .ok kind := by
    cases kind <;> rfl
  rw [Restores, toDatum, Datum.object, read, readOwnMembers, readChildren_eq,
    required_toEntries rfl (restores_text name), required_toEntries rfl kindKept,
    optional_toEntries rfl (restores_truth isKey),
    optional_toEntries rfl childrenKept]
  rfl

mutual

/-- A field that is read is read back, and so are the fields inside it. -/
theorem restores_of_read :
    ∀ {value : Datum} {field : DisplayField}, read value = .ok field →
      Restores read toDatum field
  | .map entries, field, success => by
    rw [read] at success
    rcases exists_of_map_eq_ok success with ⟨parts, each, rfl⟩
    rw [both_eq_ok_iff] at each
    exact restores (restores_of_readChildren each.2)

theorem restores_of_readChildren :
    ∀ {entries : List (Scalar × Datum)} {children : Option DisplayTree},
      readChildren entries = .ok children →
        Restores readOptionalTree childrenToDatum children
  | [], children, success => by
    cases success
    rfl
  | (key, value) :: rest, children, success => by
    rw [readChildren] at success
    split at success
    · exact restores_of_readOptionalTree (inside_eq_ok_iff.1 success)
    · exact restores_of_readChildren success

theorem restores_of_readOptionalTree :
    ∀ {value : Datum} {children : Option DisplayTree},
      readOptionalTree value = .ok children →
        Restores readOptionalTree childrenToDatum children
  | .map entries, children, success => by
    rw [readOptionalTree] at success
    rcases exists_of_map_eq_ok success with ⟨tree, each, rfl⟩
    refine restores_tree (Named.nodup_keys_putAll List.nodup_nil) ?_
    intro entry member
    rcases Named.mem_or_mem_of_mem_putAll member with none | isRead
    · cases none
    · exact restores_of_readTreeEntries each entry isRead
  | .scalar .null, children, success => by
    cases success
    rfl

theorem restores_of_readTreeEntries :
    ∀ {entries : List (Scalar × Datum)} {tree : DisplayTree},
      readTreeEntries entries = .ok tree →
        ∀ entry ∈ tree, Restores read toDatum entry.2
  | [], tree, success => by
    cases success
    exact List.forall_mem_nil _
  | (key, value) :: rest, tree, success => by
    rw [readTreeEntries] at success
    rcases exists_of_map_eq_ok success with ⟨parts, each, rfl⟩
    rw [both_eq_ok_iff, both_eq_ok_iff] at each
    rcases each with ⟨⟨-, here⟩, behind⟩
    exact
      List.forall_mem_cons.2
        ⟨restores_of_read (inside_eq_ok_iff.1 here),
          restores_of_readTreeEntries behind⟩

end

end Table.DisplayField

/--
Whatever the check of a model gives is read back from what it is written as, and
so is every endpoint that is made from an operation.
-/
theorem models_readBack :
    ReadsBack Parameter.read Parameter.toDatum ∧
      ReadsBack Endpoint.read Endpoint.toDatum ∧
      ReadsBack Filter.Field.read Filter.Field.toDatum ∧
      ReadsBack Filter.Expression.read Filter.Expression.toDatum ∧
      ReadsBack ResponseBody.read ResponseBody.toDatum ∧
      ReadsBack Table.DisplayField.read Table.DisplayField.toDatum ∧
      ∀ (definitions : Datum) (operation : Operation) (endpoint : Endpoint),
        operation.endpoint definitions = .ok endpoint →
          Restores Endpoint.read Endpoint.toDatum endpoint := by
  refine ⟨Parameter.readsBack, Endpoint.readsBack, fun _ field _ => field.restores,
    fun _ expression _ => expression.restores, ResponseBody.readsBack,
    fun _ _ => Table.DisplayField.restores_of_read, ?_⟩
  intro definitions operation endpoint success
  exact (Operation.isBuilt_of_endpoint success).restores

/-- A word for true is written as the truth value. -/
example :
    (Parameter.read
        (.object
          [("location", .str "query"), ("name", .str "limit"),
            ("required", .str "Yes"), ("schema_obj", .object [])])).map
        Parameter.toDatum =
      .ok
        (.object
          [("location", .str "query"), ("name", .str "limit"),
            ("required", .bool true), ("schema_obj", .object [])]) := by
  decide +kernel

end ApiAtlas
