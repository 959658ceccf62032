import ApiAtlas.Proofs.Schema.Readable

/-!
# Refused filter fields

The walk that lists the filter fields of a body joins the names of properties
to paths.  Where the names are texts, a body is refused for a field without a
path, for its nesting, or for a leaf whose type cannot be read, and for nothing
else.
-/

namespace ApiAtlas.Filter

open Schema (HasTextNames Throughout)

variable {root node part : Datum} {entries : Entries} {fault : Fault}

/-! ## Schemas with textual names -/

/-- A property of schemas that goes over to parts and makes all names texts. -/
def KeepsTextNames (holds : Datum → Prop) : Prop :=
  ∀ entries, holds (.map entries) →
    HasTextNames entries ∧ ∀ part ∈ Schema.parts entries, holds part

theorem keepsTextNames_throughout : KeepsTextNames (Throughout HasTextNames) := by
  intro entries throughout
  cases throughout with
  | value noObject => exact (noObject entries rfl).elim
  | object _ here each => exact ⟨here, each⟩

theorem keepsTextNames_eachMap :
    KeepsTextNames (Datum.EachMap Entries.HasTextKeys) := by
  intro entries eachMap
  refine ⟨?_, fun part => Schema.eachMap_of_mem_parts eachMap⟩
  intro named held
  exact (eachMap.of_get? held).of_map

/-- A path of texts is marked as a path of texts. -/
theorem exists_markArray (texts : List String) :
    ∃ marked : List String,
      markArray (texts.map .str) = .ok (marked.map .str) := by
  induction texts with
  | nil => exact ⟨[arrayMarker], rfl⟩
  | cons text rest ih =>
    cases rest with
    | nil => exact ⟨[text ++ arrayMarker], rfl⟩
    | cons next rest =>
      rcases ih with ⟨marked, marking⟩
      refine ⟨text :: marked, ?_⟩
      rw [List.map_cons] at marking ⊢
      rw [List.map_cons, markArray, marking]
      · rfl
      · simp
      · simp

/-! ## Reasons for a refusal -/

/-- What a schema at a node is refused for. -/
inductive IsRefusal (root node : Datum) : Fault → Prop where
  | noPath : IsRefusal root node (.unaddressableField root)
  | nesting (path : String) : IsRefusal root node (.nestedTooDeep path)
  /-- A leaf of the node has a type that cannot be read. -/
  | type {trail : List Step} {leaf : Leaf} {issues : List Issue}
      (found : LeafAt node trail leaf)
      (unreadable :
        (Checked.readOptionalText leaf.type).inside (.name "type") =
          .error issues) :
      IsRefusal root node (.invalid issues)

/-- What a part is refused for if its leaves are leaves of the node. -/
theorem IsRefusal.above
    (refusal : IsRefusal root part fault)
    (leaves : ∀ trail leaf, LeafAt part trail leaf →
      ∃ further, LeafAt node further leaf) :
    IsRefusal root node fault := by
  cases refusal with
  | noPath => exact .noPath
  | nesting path => exact .nesting path
  | type found unreadable =>
    rcases leaves _ _ found with ⟨further, above⟩
    exact .type above unreadable

theorem isRefusal_of_fieldAt
    {texts : List String} {trail : List Step} {leaf : Leaf}
    (found : LeafAt node trail leaf)
    (failure : fieldAt root (texts.map .str) leaf = .error fault) :
    IsRefusal root node fault := by
  rw [fieldAt, joinPath_texts] at failure
  rcases error_or_of_bind_eq_error failure with none | ⟨path, -, failure⟩
  · cases none
  · split at failure
    · cases failure
      exact .noPath
    · rcases error_or_of_bind_eq_error failure with unreadable | ⟨type, -, none⟩
      · cases read : (Checked.readOptionalText leaf.type).inside (.name "type") with
        | error issues =>
          rw [read] at unreadable
          cases unreadable
          exact .type found read
        | ok type =>
          rw [read] at unreadable
          cases unreadable
      · cases none

/-- The walks of properties fail with the fault of one of them. -/
theorem exists_of_propertyFields_eq_error
    {walk : List Scalar → Datum → Except Fault (List Field)}
    {parts : List Scalar} {properties : Entries}
    (failure : propertyFields walk parts properties = .error fault) :
    ∃ property ∈ properties,
      walk (parts ++ [property.1]) property.2 = .error fault := by
  induction properties with
  | nil => cases failure
  | cons property rest ih =>
    rw [propertyFields] at failure
    rcases error_or_of_bind_eq_error failure with here | ⟨found, -, failure⟩
    · exact ⟨property, List.mem_cons_self, here⟩
    · rcases error_or_of_bind_eq_error failure with behind | ⟨others, -, none⟩
      · rcases ih behind with ⟨later, member, failed⟩
        exact ⟨later, List.mem_cons_of_mem _ member, failed⟩
      · cases none

theorem isRefusal_of_fieldsByType
    {walk : List Scalar → Datum → Except Fault (List Field)}
    {texts : List String} (names : HasTextNames entries)
    (each : ∀ part ∈ Schema.parts entries,
      ∀ (texts : List String) (fault : Fault),
        walk (texts.map .str) part = .error fault → IsRefusal root part fault)
    (noWrapper : leaf? (.map entries) = none)
    (noBranch : containerBranch? entries = none)
    (failure : fieldsByType root walk (texts.map .str) entries = .error fault) :
    IsRefusal root (.map entries) fault := by
  unfold fieldsByType at failure
  split at failure
  · next properties isObject held =>
    rcases exists_of_propertyFields_eq_error failure with
      ⟨⟨name, property⟩, member, failed⟩
    have isPart : property ∈ Schema.parts entries :=
      Schema.mem_parts_of_property held (List.mem_map_of_mem member)
    rcases names properties held name (List.mem_map_of_mem member) with
      ⟨text, rfl⟩
    have below : IsRefusal root property fault := by
      refine each property isPart (texts ++ [text]) fault ?_
      rw [List.map_append]
      exact failed
    refine below.above fun trail leaf found => ?_
    exact ⟨_, .property noWrapper noBranch isObject held member found⟩
  · next inner isArray held =>
    rcases exists_markArray texts with ⟨marked, marking⟩
    rw [marking] at failure
    have isPart : .map inner ∈ Schema.parts entries :=
      Schema.mem_parts_of_items (Schema.describesArray_of_type isArray) held
    refine (each _ isPart marked fault failure).above fun trail leaf found => ?_
    exact ⟨_, .items noWrapper noBranch isArray held found⟩
  · next type stated _ _ =>
    split at failure
    · next isScalar =>
      rcases error_or_of_bind_eq_error failure with here | ⟨field, -, none⟩
      · exact
          isRefusal_of_fieldAt (.scalar noWrapper noBranch stated isScalar) here
      · cases none
    · cases failure
  · cases failure

/-- Where all names are texts a walk is refused for one of the reasons. -/
theorem isRefusal_of_fieldsWithin
    {holds : Datum → Prop} (keeps : KeepsTextNames holds) (here : holds node)
    {budget : Nat} {texts : List String}
    (failure :
      fieldsWithin root budget (texts.map .str) node = .error fault) :
    IsRefusal root node fault := by
  induction budget generalizing node texts fault with
  | zero =>
    cases node with
    | map entries =>
      rw [fieldsWithin, joinPath_texts] at failure
      cases failure
      exact .nesting _
    | _ => cases failure
  | succ budget ih =>
    cases node with
    | map entries =>
      rcases keeps entries here with ⟨names, each⟩
      cases wrapper : leaf? (.map entries) with
      | some leaf =>
        rw [fieldsWithin_of_leaf wrapper] at failure
        rcases error_or_of_bind_eq_error failure with refused | ⟨field, -, none⟩
        · exact isRefusal_of_fieldAt (.wrapper wrapper) refused
        · cases none
      | none =>
        cases branch : containerBranch? entries with
        | some inner =>
          rw [fieldsWithin_of_branch wrapper branch] at failure
          have isPart := mem_parts_of_containerBranch? branch
          refine
            (ih (each inner isPart) failure).above fun trail leaf found => ?_
          exact ⟨trail, .branch wrapper branch found⟩
        | none =>
          rw [fieldsWithin_of_noBranch wrapper branch] at failure
          refine isRefusal_of_fieldsByType names ?_ wrapper branch failure
          intro part isPart texts fault failed
          exact ih (each part isPart) failed
    | _ => cases failure

theorem isRefusal_of_fieldsOf
    {holds : Datum → Prop} (keeps : KeepsTextNames holds) (here : holds node)
    (failure : fieldsOf node = .error fault) : IsRefusal node node fault := by
  have failed :
      fieldsWithin node (Schema.walkBudget Schema.depthLimit)
        (([] : List String).map .str) node = .error fault := failure
  exact isRefusal_of_fieldsWithin keeps here failed

/-! ## Bodies of operations -/

theorem IsRefusal.isDeclared
    (refusal : IsRefusal root node fault) : fault.IsDeclared := by
  cases refusal with
  | noPath => exact Or.inl rfl
  | nesting path => exact Or.inl rfl
  | type => exact Or.inr rfl

/-- The fields of a schema with its examples are listed or refused. -/
theorem failsAsDeclared_fieldsOf
    {node definitions stated : Datum}
    (keysOfDefinitions : definitions.EachMap Entries.HasTextKeys)
    (keys : node.EachMap Entries.HasTextKeys)
    (made :
      Schema.inlineWithExamples node definitions stated = .ok entries) :
    FailsAsDeclared (fieldsOf (.map entries)) := by
  rcases Schema.inlineWithExamples_eq_ok made with
    ⟨inlined, first, rest, done, rfl⟩
  have names : Throughout HasTextNames (.map inlined) := by
    apply Schema.throughout_of_inlineWithin
      Schema.keptByInlining_hasTextNames _ done
    intro entries met named found
    have inside :=
      (Schema.eachMap_of_meets keysOfDefinitions keys met).of_get? found
    exact inside.of_map
  have here : HasTextNames inlined :=
    (keepsTextNames_throughout inlined names).1
  intro fault failure
  have refusal : IsRefusal _ _ fault :=
    isRefusal_of_fieldsOf keepsTextNames_throughout
      (names.putExamples (here.putExamples _)) failure
  exact refusal.isDeclared

end ApiAtlas.Filter
