import ApiAtlas.Proofs.Filter.Nesting
import ApiAtlas.Proofs.Filter.Refusal
import ApiAtlas.Proofs.Filter.Body
import ApiAtlas.Proofs.Filter.Wrapper

/-!
# Types of leaves

The type of a field is a text or unknown.  The walk that lists the fields of a
schema takes the type of a wrapped value as it is stated, and any value of JSON
can be stated there.  If the types of all leaves are texts or absent, the fields
are listed, or the schema is refused for a defect; if one of them is anything
else, such as a list of types, no fields are listed at all.
-/

namespace ApiAtlas.Filter

variable {node schema : Datum} {entries : Entries} {leaf : Leaf}
  {trail : List Step}

/-! ## Leaves of JSON -/

/-- A value each map of which is one of JSON. -/
abbrev HasJsonMaps (value : Datum) : Prop :=
  value.EachMap fun entries => (Datum.map entries).isJson = true

theorem hasJsonMaps_of_isJson (json : node.isJson = true) : HasJsonMaps node :=
  Datum.eachMap_passes json

theorem eachMap_of_mem_branches
    {holds : Entries → Prop} (eachMap : node.EachMap holds)
    {branch : Datum} (isBranch : branch ∈ branches node) :
    branch.EachMap holds := by
  have inList (name : String) (items : List Datum)
      (held : node.field? name = some (.list items)) (listed : branch ∈ items) :
      branch.EachMap holds := by
    cases eachMap.of_field? held with
    | list each => exact each branch listed
  rw [branches] at isBranch
  split at isBranch
  · next items held => exact inList "oneOf" items held isBranch
  · split at isBranch
    · next items held => exact inList "anyOf" items held isBranch
    · cases isBranch

/-- The type of a wrapped value is one of JSON. -/
theorem isJson_type_of_leaf?
    (found : leaf? node = some leaf) (json : HasJsonMaps node) :
    leaf.type.isJson = true := by
  induction node, leaf, found using leaf?_induction with
  | branch isBranch _ _ ih => exact ih (eachMap_of_mem_branches json isBranch)
  | @wrapper node inner wraps _ =>
    cases node with
    | map entries =>
      rcases wrapped?_eq_some_iff.1 wraps with ⟨-, name, -, held⟩
      have innerJson : HasJsonMaps inner :=
        (json.of_get? held).of_mem_map List.mem_cons_self
      rw [Leaf.ofInner]
      cases stated : inner.field? "type" with
      | none => rfl
      | some type =>
        cases inner with
        | map within => exact Datum.passes_of_get? innerJson.of_map stated
        | _ => cases stated
    | _ => cases wraps

/-- The types of the leaves of JSON are values of JSON. -/
theorem isJson_type_of_leafAt
    (found : LeafAt node trail leaf) (json : HasJsonMaps node) :
    leaf.type.isJson = true := by
  induction found with
  | wrapper found => exact isJson_type_of_leaf? found json
  | branch _ entered _ ih =>
    have isPart := mem_parts_of_containerBranch? entered
    exact ih (Schema.eachMap_of_mem_parts json isPart)
  | property _ _ _ held member _ ih =>
    exact ih ((json.of_get? held).of_mem_map member)
  | items _ _ _ held _ ih => exact ih (json.of_get? held)
  | scalar => rfl

/-! ## Types that can be read -/

/-- A leaf whose type is a text, or which has none. -/
def Leaf.IsTyped (leaf : Leaf) : Prop :=
  leaf.type = .null ∨ ∃ text, leaf.type = .str text

/-- What is wrong with a field whose type is something else. -/
def typeIssues : List Issue := [⟨.notText, [.name "type"]⟩]

/-- A type of JSON is read if it is a text or absent, and for no other reason. -/
theorem inside_readOptionalText
    (json : leaf.type.isJson = true) :
    (leaf.IsTyped ∧ ∃ type,
      (Checked.readOptionalText leaf.type).inside (.name "type") = .ok type) ∨
      ¬ leaf.IsTyped ∧
        (Checked.readOptionalText leaf.type).inside (.name "type") =
          .error typeIssues := by
  rcases leaf with ⟨type, examples⟩
  have untyped (noText : ∀ text, type ≠ .str text) (noNull : type ≠ .null) :
      ¬ Leaf.IsTyped ⟨type, examples⟩ := by
    rintro (same | ⟨text, same⟩)
    · exact noNull same
    · exact noText text same
  cases type with
  | scalar value =>
    cases value with
    | null => exact Or.inl ⟨Or.inl rfl, none, rfl⟩
    | str text => exact Or.inl ⟨Or.inr ⟨text, rfl⟩, some text, rfl⟩
    | bytes content => cases json
    | _ => exact Or.inr ⟨untyped nofun nofun, rfl⟩
  | _ => exact Or.inr ⟨untyped nofun nofun, rfl⟩

/-! ## Outcomes of the walk -/

/-- A defect for which a schema is refused: a field without a path, or its depth. -/
def IsDefect (schema : Datum) (fault : Fault) : Prop :=
  fault = .unaddressableField schema ∨ ∃ path, fault = .nestedTooDeep path

/-- Fields with paths, or a defect of the schema. -/
def EndsAsDeclared (schema : Datum) : Except Fault (List Field) → Prop
  | .ok fields => ∀ field ∈ fields, field.path ≠ ""
  | .error fault => IsDefect schema fault

/-- A schema of JSON is refused for a defect or for the type of a leaf. -/
theorem isDefect_or_of_fieldsOf
    {fault : Fault} (json : schema.isJson = true)
    (failure : fieldsOf schema = .error fault) :
    IsDefect schema fault ∨
      (∃ trail leaf, LeafAt schema trail leaf ∧ ¬ leaf.IsTyped) ∧
        fault = .invalid typeIssues := by
  have refusal : IsRefusal schema schema fault :=
    isRefusal_of_fieldsOf keepsTextNames_eachMap
      (Datum.eachMap_of_isJson json) failure
  cases refusal with
  | noPath => exact Or.inl (Or.inl rfl)
  | nesting path => exact Or.inl (Or.inr ⟨path, rfl⟩)
  | @type trail leaf issues found unreadable =>
    have typeJson :=
      isJson_type_of_leafAt found (hasJsonMaps_of_isJson json)
    rcases inside_readOptionalText typeJson with
      ⟨-, type, read⟩ | ⟨untyped, same⟩
    · cases read.symm.trans unreadable
    · cases same.symm.trans unreadable
      exact Or.inr ⟨⟨trail, leaf, found, untyped⟩, rfl⟩

/-- Where fields are listed they have paths, and all leaves have types. -/
theorem path_and_isTyped_of_fieldsOf
    {fields : List Field} (json : schema.isJson = true)
    (listed : fieldsOf schema = .ok fields) :
    (∀ field ∈ fields, field.path ≠ "") ∧
      ∀ trail leaf, LeafAt schema trail leaf → leaf.IsTyped := by
  have lists := lists_of_fieldsWithin listed
  constructor
  · intro field member
    rcases lists.sound field member with ⟨trail, leaf, -, made⟩
    rcases exists_of_bind_eq_ok made with ⟨parts, -, made⟩
    exact (path_of_fieldAt made).2
  · intro trail leaf found
    rcases lists.complete trail leaf found with ⟨field, -, made⟩
    rcases exists_of_bind_eq_ok made with ⟨parts, -, made⟩
    have typeJson :=
      isJson_type_of_leafAt found (hasJsonMaps_of_isJson json)
    rcases inside_readOptionalText typeJson with ⟨typed, -⟩ | ⟨-, unread⟩
    · exact typed
    · rcases exists_of_bind_eq_ok made with ⟨path, -, made⟩
      split at made
      · cases made
      · rw [unread] at made
        cases made

/--
The fields of a schema of JSON are listed with paths or it is refused for a
defect, if the types of all leaves that the walk reaches are texts or absent.
If a leaf has another type no fields are listed, and unless there is a defect
the schema is refused for the type.
-/
theorem fieldsOf_endsAsDeclared
    {schema : Datum} (json : schema.isJson = true) :
    ((∀ trail leaf, LeafAt schema trail leaf → leaf.IsTyped) →
        EndsAsDeclared schema (fieldsOf schema)) ∧
      ((∃ trail leaf, LeafAt schema trail leaf ∧ ¬ leaf.IsTyped) →
        ∃ fault, fieldsOf schema = .error fault ∧
          (IsDefect schema fault ∨ fault = .invalid typeIssues)) := by
  cases outcome : fieldsOf schema with
  | ok fields =>
    rcases path_and_isTyped_of_fieldsOf json outcome with ⟨paths, typed⟩
    refine ⟨fun _ => paths, ?_⟩
    rintro ⟨trail, leaf, found, untyped⟩
    exact (untyped (typed trail leaf found)).elim
  | error fault =>
    have reason := isDefect_or_of_fieldsOf json outcome
    constructor
    · intro typed
      rcases reason with defect | ⟨⟨trail, leaf, found, untyped⟩, -⟩
      · exact defect
      · exact (untyped (typed trail leaf found)).elim
    · intro _
      exact ⟨fault, rfl, reason.imp_right And.right⟩

/-- An object with a wrapper of values of a type. -/
def holderOfValues (type : Datum) : Datum :=
  holderOf (wrapperOf .greater (.object [("type", type)]))

/-- The field of a wrapper of whole numbers is listed. -/
theorem fieldsOf_endsAsDeclared_integer :
    EndsAsDeclared (holderOfValues (.str "integer"))
      (fieldsOf (holderOfValues (.str "integer"))) := by
  have json : (holderOfValues (.str "integer")).isJson = true := by decide
  have listed :
      fieldsOf (holderOfValues (.str "integer")) =
        .ok [⟨"p", some "integer", [.int 0]⟩] := by
    decide +kernel
  exact
    (fieldsOf_endsAsDeclared json).1
      (path_and_isTyped_of_fieldsOf json listed).2

/-- A schema is refused because a wrapped value may be null by its type. -/
theorem not_forall_fieldsOf_endsAsDeclared :
    ¬ ∀ schema : Datum, schema.isJson = true →
      EndsAsDeclared schema (fieldsOf schema) := by
  intro always
  have refused :
      fieldsOf (holderOfValues (.list [.str "integer", .str "null"])) =
        .error (.invalid typeIssues) := by
    decide +kernel
  have declared :=
    always (holderOfValues (.list [.str "integer", .str "null"])) (by decide)
  rw [refused] at declared
  rcases declared with noPath | ⟨path, deep⟩
  · cases noPath
  · cases deep

end ApiAtlas.Filter
