import ApiAtlas.Filter.Field
import ApiAtlas.Proofs.Schema.Inlined

/-!
# Filter fields of schemas without references

The walk that lists the filter fields of a body enters no more than the parts
of its schemas.  What inlining gives is nested no more deeply than the walk
may go, so the walk never gives up because of depth.
-/

namespace ApiAtlas.Filter

open Schema (Inlined parts)

variable {α β : Type}

/-- Whether a walk gives up because the schema is nested too deeply. -/
def IsTooDeep (outcome : Except Fault α) : Prop :=
  ∃ path, outcome = .error (.nestedTooDeep path)

/-- Steps give up because of depth only if one of them does. -/
theorem IsTooDeep.of_bind
    {outcome : Except Fault α} {next : α → Except Fault β}
    (tooDeep : IsTooDeep (outcome >>= next)) :
    IsTooDeep outcome ∨ ∃ value, outcome = .ok value ∧ IsTooDeep (next value) := by
  rcases tooDeep with ⟨path, failed⟩
  rcases error_or_of_bind_eq_error failed with here | ⟨value, found, behind⟩
  · exact Or.inl ⟨path, here⟩
  · exact Or.inr ⟨value, found, path, behind⟩

theorem not_isTooDeep_ok (value : α) : ¬ IsTooDeep (.ok value) := by
  rintro ⟨path, failed⟩
  cases failed

theorem not_isTooDeep_joinPath (path : List Scalar) :
    ¬ IsTooDeep (joinPath path) := by
  intro tooDeep
  rcases tooDeep.of_bind with ⟨place, failed⟩ | ⟨texts, -, failed⟩
  · rcases mapM_eq_error_iff.1 failed with ⟨index, key, -, here, -⟩
    cases key <;> cases here
  · exact not_isTooDeep_ok _ failed

theorem not_isTooDeep_markArray (path : List Scalar) :
    ¬ IsTooDeep (markArray path) := by
  fun_induction markArray path with
  | case1 => exact not_isTooDeep_ok _
  | case2 text => exact not_isTooDeep_ok _
  | case3 part =>
    rintro ⟨path, failed⟩
    cases failed
  | case4 part rest _ _ ih =>
    intro tooDeep
    rcases tooDeep.of_bind with inner | ⟨marked, -, failed⟩
    · exact ih inner
    · exact not_isTooDeep_ok _ failed

/-- A leaf is refused for its path or its type, not for its depth. -/
theorem not_isTooDeep_fieldAt (root : Datum) (path : List Scalar) (leaf : Leaf) :
    ¬ IsTooDeep (fieldAt root path leaf) := by
  intro tooDeep
  rcases tooDeep.of_bind with inner | ⟨joined, -, rest⟩
  · exact not_isTooDeep_joinPath path inner
  · split at rest
    · rcases rest with ⟨place, failed⟩
      cases failed
    · rcases rest.of_bind with ⟨place, failed⟩ | ⟨type, -, made⟩
      · cases checked : (Checked.readOptionalText leaf.type).inside (.name "type")
        all_goals
          rw [checked] at failed
          cases failed
      · exact not_isTooDeep_ok _ made

section Walks

variable {root : Datum} {walk : List Scalar → Datum → Except Fault (List Field)}
  {path : List Scalar} {entries : Entries}

theorem not_isTooDeep_propertyFields
    {properties : Entries}
    (each : ∀ property ∈ properties.map Prod.snd, ∀ path,
      ¬ IsTooDeep (walk path property)) :
    ¬ IsTooDeep (propertyFields walk path properties) := by
  induction properties with
  | nil => exact not_isTooDeep_ok _
  | cons property rest ih =>
    rw [List.map_cons, List.forall_mem_cons] at each
    intro tooDeep
    rcases tooDeep.of_bind with here | ⟨found, -, behind⟩
    · exact each.1 _ here
    · rcases behind.of_bind with inner | ⟨others, -, joined⟩
      · exact ih each.2 inner
      · exact not_isTooDeep_ok _ joined

/-- The branch that is entered is a part of the object. -/
theorem mem_parts_of_containerBranch?
    {branch : Datum} (found : containerBranch? entries = some branch) :
    branch ∈ parts entries := by
  rw [containerBranch?, Option.bind_eq_some_iff] at found
  rcases found with ⟨items, listed, chosen⟩
  have member := List.mem_of_find?_eq_some chosen
  rw [Option.bind_eq_some_iff] at listed
  rcases listed with ⟨value, held, isList⟩
  cases value with
  | list listed =>
    cases isList
    have under (composite : String)
        (isComposite : composite ∈ Schema.compositeMembers)
        (stands : Entries.get? (.str composite) entries = some (.list items)) :
        branch ∈ parts entries :=
      Schema.mem_parts_of_branch isComposite stands member
    rcases Option.or_eq_some_iff.1 held with first | ⟨-, second⟩
    · exact under "oneOf" (by decide) (Option.filter_eq_some_iff.1 first).1
    · exact under "anyOf" (by decide) second
  | _ => cases isList

theorem not_isTooDeep_fieldsByType
    (each : ∀ part ∈ parts entries, ∀ path, ¬ IsTooDeep (walk path part)) :
    ¬ IsTooDeep (fieldsByType root walk path entries) := by
  unfold fieldsByType
  split
  · next properties _ held =>
    apply not_isTooDeep_propertyFields
    intro property isProperty
    exact each property (Schema.mem_parts_of_property held isProperty)
  · next inner isArray held =>
    intro tooDeep
    rcases tooDeep.of_bind with marking | ⟨marked, -, below⟩
    · exact not_isTooDeep_markArray path marking
    · have describes := Schema.describesArray_of_type isArray
      have isPart : .map inner ∈ parts entries :=
        Schema.mem_parts_of_items describes held
      exact each (.map inner) isPart marked below
  · split
    · intro tooDeep
      rcases tooDeep.of_bind with inner | ⟨field, -, single⟩
      · exact not_isTooDeep_fieldAt _ _ _ inner
      · exact not_isTooDeep_ok _ single
    · exact not_isTooDeep_ok _
  · exact not_isTooDeep_ok _

/-- A walk may go as deeply as a schema without references is nested. -/
theorem not_isTooDeep_fieldsWithin
    {budget : Nat} {node : Datum} (inlined : Inlined budget node) :
    ¬ IsTooDeep (fieldsWithin root budget path node) := by
  induction inlined generalizing path with
  | value noObject =>
    rename_i node
    cases node with
    | map entries => exact (noObject entries rfl).elim
    | _ => exact not_isTooDeep_ok _
  | object _ _ ih =>
    rw [fieldsWithin]
    split
    · intro tooDeep
      rcases tooDeep.of_bind with inner | ⟨field, -, single⟩
      · exact not_isTooDeep_fieldAt _ _ _ inner
      · exact not_isTooDeep_ok _ single
    · split
      · next branch found => exact ih branch (mem_parts_of_containerBranch? found)
      · exact not_isTooDeep_fieldsByType fun part isPart path => ih part isPart

end Walks

/-- The fields of what inlining gives are found without going too deep. -/
theorem not_isTooDeep_fieldsOf
    {node definitions schema : Datum}
    (success :
      Schema.inline node definitions Schema.depthLimit = .ok schema) :
    ¬ IsTooDeep (fieldsOf schema) :=
  not_isTooDeep_fieldsWithin (Schema.inlined_of_inlineWithin success)

end ApiAtlas.Filter
