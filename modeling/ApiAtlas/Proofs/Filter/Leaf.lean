import ApiAtlas.Filter.Field
import ApiAtlas.Proofs.Outcome

/-!
# The leaves of a body schema

A leaf is reached from the root by steps: to a property of an object, or to
the items of an array.  Entering a branch of a composite is no step, as it
leaves no trace in a path.

The walk over a schema lists exactly the fields of its leaves.
-/

namespace ApiAtlas.Filter

/-- A step from a schema to a part of it. -/
inductive Step where
  | property (name : Scalar)
  | items
deriving DecidableEq, Repr

/-- A leaf of a schema and the steps that lead to it. -/
inductive LeafAt : Datum → List Step → Leaf → Prop where
  /-- An operator wrapper, perhaps among the branches of the node. -/
  | wrapper {entries : Entries} {leaf : Leaf}
      (found : leaf? (.map entries) = some leaf) :
      LeafAt (.map entries) [] leaf
  /-- The first branch that describes an object or an array is entered. -/
  | branch {entries : Entries} {inner : Datum} {trail : List Step}
      {leaf : Leaf} (noWrapper : leaf? (.map entries) = none)
      (found : containerBranch? entries = some inner)
      (below : LeafAt inner trail leaf) :
      LeafAt (.map entries) trail leaf
  | property {entries properties : Entries} {name : Scalar} {node : Datum}
      {trail : List Step} {leaf : Leaf}
      (noWrapper : leaf? (.map entries) = none)
      (noBranch : containerBranch? entries = none)
      (isObject :
        Entries.get? (.str "type") entries = some (.str "object"))
      (held :
        Entries.get? (.str "properties") entries = some (.map properties))
      (member : (name, node) ∈ properties) (below : LeafAt node trail leaf) :
      LeafAt (.map entries) (.property name :: trail) leaf
  | items {entries inner : Entries} {trail : List Step} {leaf : Leaf}
      (noWrapper : leaf? (.map entries) = none)
      (noBranch : containerBranch? entries = none)
      (isArray : Entries.get? (.str "type") entries = some (.str "array"))
      (held : Entries.get? (.str "items") entries = some (.map inner))
      (below : LeafAt (.map inner) trail leaf) :
      LeafAt (.map entries) (.items :: trail) leaf
  | scalar {entries : Entries} {type : String}
      (noWrapper : leaf? (.map entries) = none)
      (noBranch : containerBranch? entries = none)
      (stated : Entries.get? (.str "type") entries = some (.str type))
      (isScalar : type ∈ scalarTypes) :
      LeafAt (.map entries) [] ⟨.str type, listedExamples (.map entries)⟩

/-- The parts of the path behind some parts after some steps. -/
def partsFrom (parts : List Scalar) : List Step → Except Fault (List Scalar)
  | [] => .ok parts
  | .property name :: trail => partsFrom (parts ++ [name]) trail
  | .items :: trail => do
    let marked ← markArray parts
    partsFrom marked trail

/-- The field of a leaf that some steps lead to from a path. -/
def fieldFrom (root : Datum) (parts : List Scalar) (trail : List Step)
    (leaf : Leaf) : Except Fault Field := do
  let reached ← partsFrom parts trail
  fieldAt root reached leaf

/-- Fields that are those of exactly the leaves below a node. -/
structure Lists (root : Datum) (parts : List Scalar) (node : Datum)
    (fields : List Field) : Prop where
  sound : ∀ field ∈ fields, ∃ trail leaf,
    LeafAt node trail leaf ∧ fieldFrom root parts trail leaf = .ok field
  complete : ∀ trail leaf, LeafAt node trail leaf →
    ∃ field ∈ fields, fieldFrom root parts trail leaf = .ok field

variable {root node : Datum} {parts : List Scalar} {entries : Entries}
  {fields : List Field}

/-- A node that is no map has no leaves. -/
theorem not_leafAt_of_no_map
    (noMap : ∀ entries, node ≠ .map entries) (trail : List Step)
    (leaf : Leaf) : ¬ LeafAt node trail leaf := by
  intro found
  cases found <;> exact noMap _ rfl

/-- A list with the field of the only leaf, which no step leads to. -/
theorem lists_singleton
    {leaf : Leaf} {field : Field} (found : LeafAt node [] leaf)
    (only : ∀ trail other,
      LeafAt node trail other → trail = [] ∧ other = leaf)
    (made : fieldAt root parts leaf = .ok field) :
    Lists root parts node [field] := by
  constructor
  · intro other member
    rw [List.mem_singleton] at member
    subst member
    exact ⟨[], leaf, found, made⟩
  · intro trail other otherFound
    rcases only trail other otherFound with ⟨rfl, rfl⟩
    exact ⟨field, List.mem_singleton_self field, made⟩

theorem lists_of_branch
    {inner : Datum} (noWrapper : leaf? (.map entries) = none)
    (found : containerBranch? entries = some inner)
    (below : Lists root parts inner fields) :
    Lists root parts (.map entries) fields := by
  constructor
  · intro field member
    rcases below.sound field member with ⟨trail, leaf, leafFound, made⟩
    exact ⟨trail, leaf, .branch noWrapper found leafFound, made⟩
  · intro trail leaf leafFound
    refine below.complete trail leaf ?_
    cases leafFound <;> simp_all

theorem lists_of_wrapper
    {leaf : Leaf} {field : Field} (found : leaf? (.map entries) = some leaf)
    (made : fieldAt root parts leaf = .ok field) :
    Lists root parts (.map entries) [field] := by
  refine lists_singleton (.wrapper found) ?_ made
  intro trail other otherFound
  cases otherFound <;> simp_all

/-- The fields of an object are those of the leaves below its properties. -/
theorem mem_flatten_of_lists
    {properties : Entries} {founds : List (List Field)}
    (below :
      List.Forall₂
        (fun property found =>
          Lists root (parts ++ [property.1]) property.2 found)
        properties founds) :
    (∀ field ∈ founds.flatten, ∃ name node trail leaf,
      (name, node) ∈ properties ∧ LeafAt node trail leaf ∧
        fieldFrom root (parts ++ [name]) trail leaf = .ok field) ∧
      ∀ name node trail leaf, (name, node) ∈ properties →
        LeafAt node trail leaf →
          ∃ field ∈ founds.flatten,
            fieldFrom root (parts ++ [name]) trail leaf = .ok field := by
  induction below with
  | nil => simp
  | @cons property found rest others lists _ ih =>
    rcases property with ⟨name, node⟩
    rcases ih with ⟨sound, complete⟩
    rw [List.flatten_cons]
    constructor
    · intro field member
      rcases List.mem_append.1 member with inFirst | inRest
      · rcases lists.sound field inFirst with
          ⟨trail, leaf, leafFound, made⟩
        exact
          ⟨name, node, trail, leaf, List.mem_cons_self, leafFound, made⟩
      · rcases sound field inRest with
          ⟨other, inner, trail, leaf, within, below⟩
        exact
          ⟨other, inner, trail, leaf, List.mem_cons_of_mem _ within,
            below⟩
    · intro other inner trail leaf within leafFound
      rcases List.mem_cons.1 within with same | inRest
      · rcases Prod.mk.inj same with ⟨rfl, rfl⟩
        rcases lists.complete _ _ leafFound with ⟨field, member, made⟩
        exact ⟨field, List.mem_append_left _ member, made⟩
      · rcases complete other inner trail leaf inRest leafFound with
          ⟨field, member, made⟩
        exact ⟨field, List.mem_append_right _ member, made⟩

/-- The leaves of a node without wrapper and branch, by its stated type. -/
theorem leafAt_cases
    {trail : List Step} {leaf : Leaf}
    (noWrapper : leaf? (.map entries) = none)
    (noBranch : containerBranch? entries = none)
    (found : LeafAt (.map entries) trail leaf) :
    (∃ properties name node rest,
      Entries.get? (.str "type") entries = some (.str "object") ∧
        Entries.get? (.str "properties") entries = some (.map properties) ∧
        (name, node) ∈ properties ∧ LeafAt node rest leaf ∧
        trail = .property name :: rest) ∨
      (∃ inner rest,
        Entries.get? (.str "type") entries = some (.str "array") ∧
          Entries.get? (.str "items") entries = some (.map inner) ∧
          LeafAt (.map inner) rest leaf ∧ trail = .items :: rest) ∨
      ∃ type,
        Entries.get? (.str "type") entries = some (.str type) ∧
          type ∈ scalarTypes ∧ trail = [] ∧
          leaf = ⟨.str type, listedExamples (.map entries)⟩ := by
  cases found with
  | wrapper found => cases noWrapper.symm.trans found
  | branch _ found _ => cases noBranch.symm.trans found
  | property _ _ isObject held member below =>
    exact Or.inl ⟨_, _, _, _, isObject, held, member, below, rfl⟩
  | items _ _ isArray held below =>
    exact Or.inr (Or.inl ⟨_, _, isArray, held, below, rfl⟩)
  | scalar _ _ stated isScalar =>
    exact Or.inr (Or.inr ⟨_, stated, isScalar, rfl, rfl⟩)

theorem lists_of_object
    (noWrapper : leaf? (.map entries) = none)
    (noBranch : containerBranch? entries = none)
    (isObject : Entries.get? (.str "type") entries = some (.str "object"))
    {properties : Entries}
    (held :
      Entries.get? (.str "properties") entries = some (.map properties))
    {founds : List (List Field)}
    (below :
      List.Forall₂
        (fun property found =>
          Lists root (parts ++ [property.1]) property.2 found)
        properties founds) :
    Lists root parts (.map entries) founds.flatten := by
  rcases mem_flatten_of_lists below with ⟨sound, complete⟩
  constructor
  · intro field member
    rcases sound field member with
      ⟨name, node, trail, leaf, within, leafFound, made⟩
    exact
      ⟨.property name :: trail, leaf,
        .property noWrapper noBranch isObject held within leafFound, made⟩
  · intro trail leaf leafFound
    rcases leafAt_cases noWrapper noBranch leafFound with
      ⟨others, name, node, rest, -, otherHeld, within, below, rfl⟩ |
        ⟨inner, rest, isArray, -⟩ | ⟨type, stated, isScalar, -⟩
    · cases held.symm.trans otherHeld
      exact complete name node rest leaf within below
    · simp [isObject] at isArray
    · cases isObject.symm.trans stated
      simp [scalarTypes] at isScalar

theorem lists_of_array
    (noWrapper : leaf? (.map entries) = none)
    (noBranch : containerBranch? entries = none)
    (isArray : Entries.get? (.str "type") entries = some (.str "array"))
    {inner : Entries}
    (held : Entries.get? (.str "items") entries = some (.map inner))
    {marked : List Scalar} (marking : markArray parts = .ok marked)
    (below : Lists root marked (.map inner) fields) :
    Lists root parts (.map entries) fields := by
  have made (trail : List Step) (leaf : Leaf) :
      fieldFrom root parts (.items :: trail) leaf =
        fieldFrom root marked trail leaf := by
    simp only [fieldFrom, partsFrom, marking, bind, Except.bind]
  constructor
  · intro field member
    rcases below.sound field member with ⟨trail, leaf, leafFound, reached⟩
    exact
      ⟨.items :: trail, leaf,
        .items noWrapper noBranch isArray held leafFound,
        (made trail leaf).trans reached⟩
  · intro trail leaf leafFound
    rcases leafAt_cases noWrapper noBranch leafFound with
      ⟨properties, name, node, rest, isObject, -⟩ |
        ⟨others, rest, -, otherHeld, found, rfl⟩ |
        ⟨type, stated, isScalar, -⟩
    · simp [isArray] at isObject
    · cases held.symm.trans otherHeld
      rw [made]
      exact below.complete rest leaf found
    · cases isArray.symm.trans stated
      simp [scalarTypes] at isScalar

/-- A scalar is its own only leaf. -/
theorem eq_of_leafAt_scalar
    (noWrapper : leaf? (.map entries) = none)
    (noBranch : containerBranch? entries = none) {type : String}
    (stated : Entries.get? (.str "type") entries = some (.str type))
    (isScalar : type ∈ scalarTypes) {trail : List Step} {leaf : Leaf}
    (found : LeafAt (.map entries) trail leaf) :
    trail = [] ∧ leaf = ⟨.str type, listedExamples (.map entries)⟩ := by
  rcases leafAt_cases noWrapper noBranch found with
    ⟨properties, name, node, rest, isObject, -⟩ |
      ⟨inner, rest, isArray, -⟩ | ⟨other, otherStated, -, trailEq, leafEq⟩
  · cases stated.symm.trans isObject
    simp [scalarTypes] at isScalar
  · cases stated.symm.trans isArray
    simp [scalarTypes] at isScalar
  · cases stated.symm.trans otherStated
    exact ⟨trailEq, leafEq⟩

theorem lists_of_scalar
    (noWrapper : leaf? (.map entries) = none)
    (noBranch : containerBranch? entries = none) {type : String}
    (stated : Entries.get? (.str "type") entries = some (.str type))
    (isScalar : type ∈ scalarTypes) {field : Field}
    (made :
      fieldAt root parts ⟨.str type, listedExamples (.map entries)⟩ =
        .ok field) :
    Lists root parts (.map entries) [field] := by
  refine
    lists_singleton (.scalar noWrapper noBranch stated isScalar) ?_ made
  intro trail leaf found
  exact eq_of_leafAt_scalar noWrapper noBranch stated isScalar found

/-! ## One level of the walk -/

section Level

variable {budget : Nat} {properties inner : Entries}

theorem fieldsWithin_of_leaf
    {leaf : Leaf} (found : leaf? (.map entries) = some leaf) :
    fieldsWithin root (budget + 1) parts (.map entries) =
      fieldAt root parts leaf >>= fun field => pure [field] := by
  rw [fieldsWithin]
  simp only [found]

theorem fieldsWithin_of_branch
    (noWrapper : leaf? (.map entries) = none)
    (entered : containerBranch? entries = some node) :
    fieldsWithin root (budget + 1) parts (.map entries) =
      fieldsWithin root budget parts node := by
  rw [fieldsWithin]
  simp only [noWrapper, entered]

theorem fieldsWithin_of_noBranch
    (noWrapper : leaf? (.map entries) = none)
    (noBranch : containerBranch? entries = none) :
    fieldsWithin root (budget + 1) parts (.map entries) =
      fieldsByType root (fieldsWithin root budget) parts entries := by
  rw [fieldsWithin]
  simp only [noWrapper, noBranch]

variable {walk : List Scalar → Datum → Except Fault (List Field)}

theorem fieldsByType_of_object
    (isObject : Entries.get? (.str "type") entries = some (.str "object"))
    (held :
      Entries.get? (.str "properties") entries = some (.map properties)) :
    fieldsByType root walk parts entries =
      propertyFields walk parts properties := by
  simp only [fieldsByType, isObject, held]

theorem fieldsByType_of_array
    (isArray : Entries.get? (.str "type") entries = some (.str "array"))
    (held : Entries.get? (.str "items") entries = some (.map inner)) :
    fieldsByType root walk parts entries =
      markArray parts >>= fun marked => walk marked (.map inner) := by
  simp only [fieldsByType, isArray, held]

end Level

/-! ## What the walk keeps -/

/-- A property of walks that every case of the walk keeps. -/
structure KeptByWalk (root : Datum)
    (motive : List Scalar → Datum → List Field → Prop) : Prop where
  nothing : ∀ parts node,
    (∀ trail leaf, ¬ LeafAt node trail leaf) → motive parts node []
  wrapper : ∀ parts entries leaf field,
    leaf? (.map entries) = some leaf →
      fieldAt root parts leaf = .ok field →
        motive parts (.map entries) [field]
  branch : ∀ parts entries inner fields,
    leaf? (.map entries) = none →
      containerBranch? entries = some inner →
        motive parts inner fields → motive parts (.map entries) fields
  object : ∀ parts entries properties founds,
    leaf? (.map entries) = none → containerBranch? entries = none →
      Entries.get? (.str "type") entries = some (.str "object") →
        Entries.get? (.str "properties") entries =
            some (.map properties) →
          List.Forall₂
              (fun property found =>
                motive (parts ++ [property.1]) property.2 found)
              properties founds →
            motive parts (.map entries) founds.flatten
  array : ∀ parts entries inner marked fields,
    leaf? (.map entries) = none → containerBranch? entries = none →
      Entries.get? (.str "type") entries = some (.str "array") →
        Entries.get? (.str "items") entries = some (.map inner) →
          markArray parts = .ok marked →
            motive marked (.map inner) fields →
              motive parts (.map entries) fields
  scalar : ∀ parts entries type field,
    leaf? (.map entries) = none → containerBranch? entries = none →
      Entries.get? (.str "type") entries = some (.str type) →
        type ∈ scalarTypes →
          fieldAt root parts
              ⟨.str type, listedExamples (.map entries)⟩ = .ok field →
            motive parts (.map entries) [field]

section KeptByWalk

variable {motive : List Scalar → Datum → List Field → Prop}

/-- The walks of all properties of an object. -/
theorem forall₂_of_propertyFields
    {walk : List Scalar → Datum → Except Fault (List Field)}
    (walks : ∀ parts node fields,
      walk parts node = .ok fields → motive parts node fields)
    {properties : Entries}
    (found : propertyFields walk parts properties = .ok fields) :
    ∃ founds,
      fields = founds.flatten ∧
        List.Forall₂
          (fun property found =>
            motive (parts ++ [property.1]) property.2 found)
          properties founds := by
  induction properties generalizing fields with
  | nil =>
    cases found
    exact ⟨[], rfl, .nil⟩
  | cons property rest ih =>
    rw [propertyFields] at found
    rcases exists_of_bind_eq_ok found with ⟨here, first, found⟩
    rcases exists_of_bind_eq_ok found with ⟨behind, others, same⟩
    cases same
    rcases ih others with ⟨founds, rfl, below⟩
    exact ⟨here :: founds, rfl, .cons (walks _ _ _ first) below⟩

theorem KeptByWalk.of_fieldsByType
    (kept : KeptByWalk root motive)
    {walk : List Scalar → Datum → Except Fault (List Field)}
    (walks : ∀ parts node fields,
      walk parts node = .ok fields → motive parts node fields)
    (noWrapper : leaf? (.map entries) = none)
    (noBranch : containerBranch? entries = none)
    (found : fieldsByType root walk parts entries = .ok fields) :
    motive parts (.map entries) fields := by
  unfold fieldsByType at found
  split at found
  · next properties isObject held =>
    rcases forall₂_of_propertyFields walks found with ⟨founds, rfl, below⟩
    exact kept.object _ _ _ _ noWrapper noBranch isObject held below
  · next inner isArray held =>
    rcases exists_of_bind_eq_ok found with ⟨marked, marking, walked⟩
    exact
      kept.array _ _ _ _ _ noWrapper noBranch isArray held marking
        (walks _ _ _ walked)
  · next type stated noObject noArray =>
    split at found
    · next isScalar =>
      rcases exists_of_bind_eq_ok found with ⟨field, made, same⟩
      cases same
      exact kept.scalar _ _ _ _ noWrapper noBranch stated isScalar made
    · next noScalar =>
      cases found
      apply kept.nothing
      intro trail leaf leafFound
      rcases leafAt_cases noWrapper noBranch leafFound with
        ⟨properties, name, node, rest, isObject, held, -⟩ |
          ⟨inner, rest, isArray, held, -⟩ | ⟨other, otherStated, isScalar, -⟩
      · cases stated.symm.trans isObject
        exact noObject properties held rfl
      · cases stated.symm.trans isArray
        exact noArray inner held rfl
      · cases stated.symm.trans otherStated
        exact noScalar isScalar
  · next noText noObject noArray =>
    cases found
    apply kept.nothing
    intro trail leaf leafFound
    rcases leafAt_cases noWrapper noBranch leafFound with
      ⟨properties, name, node, rest, isObject, held, -⟩ |
        ⟨inner, rest, isArray, held, -⟩ | ⟨other, stated, -⟩
    · exact noObject properties isObject held
    · exact noArray inner isArray held
    · exact noText other stated

/-- What every case of the walk keeps holds of every walk that succeeds. -/
theorem KeptByWalk.of_fieldsWithin
    (kept : KeptByWalk root motive) {budget : Nat}
    (found : fieldsWithin root budget parts node = .ok fields) :
    motive parts node fields := by
  induction budget generalizing parts node fields with
  | zero =>
    cases node with
    | map entries =>
      rcases exists_of_bind_eq_ok found with ⟨path, -, thrown⟩
      cases thrown
    | _ =>
      cases found
      exact kept.nothing _ _ (not_leafAt_of_no_map (by simp))
  | succ budget ih =>
    cases node with
    | map entries =>
      cases wrapper : leaf? (.map entries) with
      | some leaf =>
        rw [fieldsWithin_of_leaf wrapper] at found
        rcases exists_of_bind_eq_ok found with ⟨field, made, same⟩
        cases same
        exact kept.wrapper _ _ _ _ wrapper made
      | none =>
        cases branch : containerBranch? entries with
        | some inner =>
          rw [fieldsWithin_of_branch wrapper branch] at found
          exact kept.branch _ _ _ _ wrapper branch (ih found)
        | none =>
          rw [fieldsWithin_of_noBranch wrapper branch] at found
          exact
            kept.of_fieldsByType (fun _ _ _ walked => ih walked) wrapper
              branch found
    | _ =>
      cases found
      exact kept.nothing _ _ (not_leafAt_of_no_map (by simp))

end KeptByWalk

theorem keptByWalk_lists (root : Datum) : KeptByWalk root (Lists root) where
  nothing _ _ none := ⟨by simp, fun trail leaf found => (none _ _ found).elim⟩
  wrapper _ _ _ _ found made := lists_of_wrapper found made
  branch _ _ _ _ noWrapper found below :=
    lists_of_branch noWrapper found below
  object _ _ _ _ noWrapper noBranch isObject held below :=
    lists_of_object noWrapper noBranch isObject held below
  array _ _ _ _ _ noWrapper noBranch isArray held marking below :=
    lists_of_array noWrapper noBranch isArray held marking below
  scalar _ _ _ _ noWrapper noBranch stated isScalar made :=
    lists_of_scalar noWrapper noBranch stated isScalar made

/-- The walk over a schema lists the fields of exactly its leaves. -/
theorem lists_of_fieldsWithin
    {budget : Nat} (found : fieldsWithin root budget parts node = .ok fields) :
    Lists root parts node fields :=
  (keptByWalk_lists root).of_fieldsWithin found

end ApiAtlas.Filter
