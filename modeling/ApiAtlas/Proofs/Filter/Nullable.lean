import ApiAtlas.Proofs.Filter.Nesting
import ApiAtlas.Proofs.Filter.Refusal
import ApiAtlas.Proofs.Filter.Wrapper

/-!
# Nodes that may be null

A node that may be null is a branch beside the null type.  The walk that lists
filter fields looks through branches in two ways: it takes the first leaf
anywhere behind them, or it enters the first branch that describes an object or
an array.  Whichever way it takes through a node, it takes through the branches
of the node that may be null as well, at most one level further down.

So the fields stay the same when a node may be null, unless the walk gives up
because of depth.  Only a wrapper that is hidden behind a second list of
branches is found in the one way but not in the other.
-/

namespace ApiAtlas.Filter

open Schema (HasTextNames)

/-! ## Outcomes that are alike -/

/--
Outcomes that are the same, unless the second one is refused for its depth.  A
field without a path is refused in either schema.
-/
inductive AlikeUnlessDeep (root other : Datum) {α : Type} :
    Except Fault α → Except Fault α → Prop where
  | same (outcome : Except Fault α) : AlikeUnlessDeep root other outcome outcome
  | noPath :
      AlikeUnlessDeep root other (.error (.unaddressableField root))
        (.error (.unaddressableField other))
  | tooDeep (outcome : Except Fault α) (path : String) :
      AlikeUnlessDeep root other outcome (.error (.nestedTooDeep path))

variable {root other node changed child new : Datum} {entries others : Entries}

section Outcomes

variable {α β : Type}

theorem AlikeUnlessDeep.bind
    {outcome changedOutcome : Except Fault α} {next after : α → Except Fault β}
    (alike : AlikeUnlessDeep root other outcome changedOutcome)
    (behind : ∀ value, AlikeUnlessDeep root other (next value) (after value)) :
    AlikeUnlessDeep root other (outcome >>= next) (changedOutcome >>= after) := by
  cases alike with
  | same =>
    cases outcome with
    | error fault => exact .same _
    | ok value => exact behind value
  | noPath => exact .noPath
  | tooDeep _ path => exact .tooDeep _ path

theorem AlikeUnlessDeep.eq_or
    {outcome changedOutcome : Except Fault α}
    (alike : AlikeUnlessDeep root other outcome changedOutcome)
    (shallow : ¬ IsTooDeep changedOutcome) :
    outcome = changedOutcome ∨
      outcome = .error (.unaddressableField root) ∧
        changedOutcome = .error (.unaddressableField other) := by
  cases alike with
  | same => exact Or.inl rfl
  | noPath => exact Or.inr ⟨rfl, rfl⟩
  | tooDeep _ path => exact (shallow ⟨path, rfl⟩).elim

end Outcomes

theorem alike_fieldAt (parts : List Scalar) (leaf : Leaf) :
    AlikeUnlessDeep root other
      (fieldAt root parts leaf >>= fun field => pure [field])
      (fieldAt other parts leaf >>= fun field => pure [field]) := by
  have alike :
      AlikeUnlessDeep root other (fieldAt root parts leaf)
        (fieldAt other parts leaf) := by
    refine (AlikeUnlessDeep.same (joinPath parts)).bind fun path => ?_
    dsimp only
    split
    · exact .noPath
    · exact .same _
  exact alike.bind fun field => .same _

/-! ## Walks that are alike -/

/-- Walks with two budgets that give the same, unless the second goes too deep. -/
def AlikeWithin (root other : Datum) (more budget : Nat)
    (node changed : Datum) : Prop :=
  ∀ texts : List String,
    AlikeUnlessDeep root other (fieldsWithin root more (texts.map .str) node)
      (fieldsWithin other budget (texts.map .str) changed)

/-- Walks that give the same if the second one has no more budget. -/
def WalkAlike (root other node changed : Datum) : Prop :=
  ∀ more budget, budget ≤ more → AlikeWithin root other more budget node changed

theorem alikeWithin_zero (more : Nat) :
    AlikeWithin root other more 0 node (.map others) := by
  intro texts
  rw [fieldsWithin, joinPath_texts]
  exact .tooDeep _ _

/-- A level that both walks go down. -/
theorem walkAlike_of_succ
    (level : ∀ more budget, budget ≤ more →
      AlikeWithin root other (more + 1) (budget + 1) node (.map others)) :
    WalkAlike root other node (.map others) := by
  intro more budget le
  cases budget with
  | zero => exact alikeWithin_zero more
  | succ budget =>
    cases more with
    | zero => exact (Nat.not_succ_le_zero budget le).elim
    | succ more => exact level more budget (Nat.le_of_succ_le_succ le)

section Levels

variable {more budget : Nat} {texts : List String}

/-- Properties with the same names, each of which is walked alike. -/
theorem alike_propertyFields
    {properties changedProperties : Entries}
    (textNames : Entries.HasTextKeys properties)
    (each :
      List.Forall₂
        (fun property changedProperty =>
          property.1 = changedProperty.1 ∧
            AlikeWithin root other more budget property.2 changedProperty.2)
        properties changedProperties) :
    AlikeUnlessDeep root other
      (propertyFields (fieldsWithin root more) (texts.map .str) properties)
      (propertyFields (fieldsWithin other budget) (texts.map .str)
        changedProperties) := by
  induction each with
  | nil => exact .same _
  | @cons property changedProperty rest changedRest here _ ih =>
    rcases property with ⟨name, part⟩
    rcases changedProperty with ⟨_, changedPart⟩
    rcases here with ⟨rfl, alike⟩
    rw [Entries.HasTextKeys, List.map_cons, List.forall_mem_cons] at textNames
    rcases textNames.1 with ⟨text, rfl⟩
    have below := alike (texts ++ [text])
    rw [List.map_append] at below
    rw [propertyFields, propertyFields]
    exact below.bind fun found => (ih textNames.2).bind fun behind => .same _

/-- Properties that differ in one are walked alike if that one is. -/
theorem alike_of_property
    {before after : Entries} {name : Scalar}
    (each : ∀ property ∈ before ++ (name, child) :: after,
      AlikeWithin root other more budget property.2 property.2)
    (alike : AlikeWithin root other more budget child new) :
    List.Forall₂
      (fun property changedProperty =>
        property.1 = changedProperty.1 ∧
          AlikeWithin root other more budget property.2 changedProperty.2)
      (before ++ (name, child) :: after) (before ++ (name, new) :: after) := by
  rw [List.forall_mem_append, List.forall_mem_cons] at each
  have ahead := fun property member =>
    And.intro (Eq.refl property.1) (each.1 property member)
  have behind := fun property member =>
    And.intro (Eq.refl property.1) (each.2.2 property member)
  exact
    List.rel_append (List.forall₂_same.2 ahead)
      (.cons ⟨rfl, alike⟩ (List.forall₂_same.2 behind))

theorem alike_items
    (alike : AlikeWithin root other more budget child new) :
    AlikeUnlessDeep root other
      (markArray (texts.map .str) >>= fun marked =>
        fieldsWithin root more marked child)
      (markArray (texts.map .str) >>= fun marked =>
        fieldsWithin other budget marked new) := by
  rcases exists_markArray texts with ⟨marked, marking⟩
  rw [marking]
  exact alike marked

theorem alike_fieldsByType
    (names : HasTextNames entries)
    (each : ∀ part ∈ Schema.parts entries,
      AlikeWithin root other more budget part part) :
    AlikeUnlessDeep root other
      (fieldsByType root (fieldsWithin root more) (texts.map .str) entries)
      (fieldsByType other (fieldsWithin other budget) (texts.map .str)
        entries) := by
  unfold fieldsByType
  split
  · next properties _ held =>
    refine alike_propertyFields (names properties held) ?_
    refine List.forall₂_same.2 fun property member => ⟨rfl, each _ ?_⟩
    exact Schema.mem_parts_of_property held (List.mem_map_of_mem member)
  · next inner isArray held =>
    refine alike_items (each _ ?_)
    exact Schema.mem_parts_of_items (Schema.describesArray_of_type isArray) held
  · split
    · exact alike_fieldAt _ _
    · exact .same _
  · exact .same _

end Levels

/-- A walk with more budget gives the same. -/
theorem walkAlike_refl
    {holds : Datum → Prop} (keeps : KeepsTextNames holds) (here : holds node) :
    WalkAlike root other node node := by
  intro more budget le
  induction budget generalizing more node with
  | zero =>
    cases node with
    | map entries => exact alikeWithin_zero more
    | _ =>
      intro texts
      cases more <;> exact .same _
  | succ budget ih =>
    cases more with
    | zero => exact (Nat.not_succ_le_zero budget le).elim
    | succ more =>
      have below (part : Datum) (partHolds : holds part) :
          AlikeWithin root other more budget part part :=
        ih partHolds more (Nat.le_of_succ_le_succ le)
      cases node with
      | map entries =>
        rcases keeps entries here with ⟨names, each⟩
        intro texts
        cases wrapper : leaf? (.map entries) with
        | some leaf =>
          rw [fieldsWithin_of_leaf wrapper, fieldsWithin_of_leaf wrapper]
          exact alike_fieldAt _ leaf
        | none =>
          cases branch : containerBranch? entries with
          | some inner =>
            rw [fieldsWithin_of_branch wrapper branch,
              fieldsWithin_of_branch wrapper branch]
            have isPart := mem_parts_of_containerBranch? branch
            exact below inner (each inner isPart) texts
          | none =>
            rw [fieldsWithin_of_noBranch wrapper branch,
              fieldsWithin_of_noBranch wrapper branch]
            exact
              alike_fieldsByType names fun part isPart =>
                below part (each part isPart)
      | _ =>
        intro texts
        exact .same _

/-! ## Nodes that the walk visits -/

/-- A node that describes an object or an array. -/
def HasContainerType (node : Datum) : Prop :=
  node.field? "type" = some (.str "object") ∨
    node.field? "type" = some (.str "array")

instance : DecidablePred HasContainerType := fun _ =>
  inferInstanceAs (Decidable (_ ∨ _))

/-- The composite member whose branches the walk may enter. -/
def IsEntered (entries : Entries) (composite : String) : Prop :=
  composite = "oneOf" ∨
    composite = "anyOf" ∧
      (Entries.get? (.str "oneOf") entries).filter Datum.isTruthy = none

/--
The walk goes from a node to a child, which is a property of an object or the
items of an array, perhaps of a branch that the walk enters.  The second node
holds another child in the same place.
-/
inductive Visits : Datum → Datum → Datum → Datum → Prop where
  | property {entries before after : Entries} {name : Scalar}
      {child new : Datum}
      (noWrapper : leaf? (.map entries) = none)
      (noBranch : containerBranch? entries = none)
      (isObject : Entries.get? (.str "type") entries = some (.str "object"))
      (held :
        Entries.get? (.str "properties") entries =
          some (.map (before ++ (name, child) :: after))) :
      Visits child new (.map entries)
        (.map
          (Entries.put (.str "properties")
            (.map (before ++ (name, new) :: after)) entries))
  | items {entries inner newInner : Entries}
      (noWrapper : leaf? (.map entries) = none)
      (noBranch : containerBranch? entries = none)
      (isArray : Entries.get? (.str "type") entries = some (.str "array"))
      (held : Entries.get? (.str "items") entries = some (.map inner)) :
      Visits (.map inner) (.map newInner) (.map entries)
        (.map (Entries.put (.str "items") (.map newInner) entries))
  | branch {entries : Entries} {composite : String}
      {before after : List Datum} {branch changed child new : Datum}
      (noWrapper : leaf? (.map entries) = none)
      (isEntered : IsEntered entries composite)
      (held :
        Entries.get? (.str composite) entries =
          some (.list (before ++ branch :: after)))
      (first : ∀ earlier ∈ before, ¬ HasContainerType earlier)
      (isContainer : HasContainerType branch)
      (inside : Visits child new branch changed) :
      Visits child new (.map entries)
        (.map
          (Entries.put (.str composite) (.list (before ++ changed :: after))
            entries))

/--
A schema and the one with another node in the place of one of its nodes.  The
walk over the schema visits the node: as the root, as a property or as the
items of an array.
-/
inductive Exchanged (node other : Datum) : Datum → Datum → Prop where
  | root : Exchanged node other node other
  | step {child new schema changed : Datum}
      (visits : Visits child new schema changed)
      (inside : Exchanged node other child new) :
      Exchanged node other schema changed

section Branches

variable {composite name : String} {items before after : List Datum}
  {branch value : Datum}

theorem hasContainerType_iff :
    (match node.field? "type" with
      | some kind => kind.isText "object" || kind.isText "array"
      | none => false) = true ↔ HasContainerType node := by
  have isText_iff (kind : Datum) (text : String) :
      kind.isText text = true ↔ kind = .str text :=
    ⟨Datum.eq_str_of_isText, fun same => same ▸ beq_self_eq_true text⟩
  unfold HasContainerType
  split
  · next kind stated =>
    simp only [stated, Bool.or_eq_true, isText_iff, Option.some.injEq]
  · next stated =>
    simp only [stated, Bool.false_eq_true, reduceCtorEq, or_self]

/-- Of the branches that may be entered the first container is. -/
theorem containerBranch?_of_first
    (isEntered : IsEntered entries composite)
    (held :
      Entries.get? (.str composite) entries =
        some (.list (before ++ branch :: after)))
    (first : ∀ earlier ∈ before, ¬ HasContainerType earlier)
    (isContainer : HasContainerType branch) :
    containerBranch? entries = some branch := by
  have truthy : (Datum.list (before ++ branch :: after)).isTruthy = true := by
    simp [Datum.isTruthy]
  have variants :
      ((Entries.get? (.str "oneOf") entries).filter Datum.isTruthy).or
          (Entries.get? (.str "anyOf") entries) =
        some (.list (before ++ branch :: after)) := by
    rcases isEntered with rfl | ⟨rfl, noFirst⟩
    · rw [held, Option.filter_some, if_pos truthy, Option.some_or]
    · rw [noFirst, held, Option.none_or]
  rw [containerBranch?]
  simp only [variants, Option.bind_some, Datum.list?]
  rw [List.find?_eq_some_iff_append]
  refine ⟨hasContainerType_iff.2 isContainer, before, after, rfl, ?_⟩
  intro earlier member
  rw [Bool.not_eq_true']
  exact Bool.eq_false_iff.2 fun found =>
    first earlier member (hasContainerType_iff.1 found)

theorem containerBranch?_put
    (noFirst : name ≠ "oneOf") (noSecond : name ≠ "anyOf") :
    containerBranch? (Entries.put (.str name) value entries) =
      containerBranch? entries := by
  rw [containerBranch?, containerBranch?,
    Entries.get?_put_of_ne noFirst.symm, Entries.get?_put_of_ne noSecond.symm]

theorem branches_put
    (noFirst : name ≠ "oneOf") (noSecond : name ≠ "anyOf") :
    branches (.map (Entries.put (.str name) value entries)) =
      branches (.map entries) := by
  rw [branches, branches, Datum.field?, Datum.field?, Datum.field?,
    Datum.field?, Entries.get?_put_of_ne noFirst.symm,
    Entries.get?_put_of_ne noSecond.symm]

theorem IsEntered.ne_type
    (isEntered : IsEntered entries composite) : composite ≠ "type" := by
  rcases isEntered with rfl | ⟨rfl, -⟩ <;> decide

theorem IsEntered.ne_properties
    (isEntered : IsEntered entries composite) : composite ≠ "properties" := by
  rcases isEntered with rfl | ⟨rfl, -⟩ <;> decide

theorem IsEntered.put
    (isEntered : IsEntered entries composite) (value : Datum) :
    IsEntered (Entries.put (.str composite) value entries) composite := by
  rcases isEntered with rfl | ⟨rfl, noFirst⟩
  · exact Or.inl rfl
  · refine Or.inr ⟨rfl, ?_⟩
    rw [Entries.get?_put_of_ne (by decide)]
    exact noFirst

theorem containerBranch?_put_composite
    (isEntered : IsEntered entries composite)
    (first : ∀ earlier ∈ before, ¬ HasContainerType earlier)
    (isContainer : HasContainerType branch) :
    containerBranch?
        (Entries.put (.str composite) (.list (before ++ branch :: after))
          entries) =
      some branch :=
  containerBranch?_of_first (isEntered.put _) (Entries.get?_put_self _ _ _)
    first isContainer

/--
Branches put under the composite member are the branches of the object, if they
were before: a list under the first member hides one under the other.
-/
theorem branches_put_composite
    (isEntered : IsEntered entries composite)
    (held : Entries.get? (.str composite) entries = some (.list items))
    (news : List Datum) :
    (branches (.map entries) = items ∧
        branches (.map (Entries.put (.str composite) (.list news) entries)) =
          news) ∨
      branches (.map (Entries.put (.str composite) (.list news) entries)) =
        branches (.map entries) := by
  have newHeld :
      Entries.get? (.str composite)
          (Entries.put (.str composite) (.list news) entries) =
        some (.list news) :=
    Entries.get?_put_self _ _ _
  rcases isEntered with rfl | ⟨rfl, -⟩
  · exact Or.inl ⟨branches_of_oneOf held, branches_of_oneOf newHeld⟩
  · have kept :
        Entries.get? (.str "oneOf")
            (Entries.put (.str "anyOf") (.list news) entries) =
          Entries.get? (.str "oneOf") entries :=
      Entries.get?_put_of_ne (by decide) _ _
    by_cases alone : HasOneLayer entries
    · refine Or.inl ⟨branches_of_anyOf alone held, branches_of_anyOf ?_ newHeld⟩
      rw [HasOneLayer, kept]
      exact alone
    · rcases not_forall.1 alone with ⟨others, hides⟩
      have first := not_not.1 hides
      rw [branches_of_oneOf first, branches_of_oneOf (kept.trans first)]
      exact Or.inr rfl

theorem wrapped?_put
    (noKind : name ≠ "type") (noProperties : name ≠ "properties") :
    wrapped? (.map (Entries.put (.str name) value entries)) =
      wrapped? (.map entries) := by
  rw [wrapped?, wrapped?, Entries.get?_put_of_ne noKind.symm,
    Entries.get?_put_of_ne noProperties.symm]

end Branches

/-! ## Visits with another child -/

/-- An object that wraps nothing does so whatever its properties hold. -/
theorem wrapped?_put_property
    {before after : Entries} {name : Scalar}
    (held :
      Entries.get? (.str "properties") entries =
        some (.map (before ++ (name, child) :: after)))
    (noWrapper : wrapped? (.map entries) = none) :
    wrapped?
        (.map
          (Entries.put (.str "properties")
            (.map (before ++ (name, new) :: after)) entries)) =
      none := by
  rw [Option.eq_none_iff_forall_ne_some]
  intro inner wraps
  rw [wrapped?_eq_some_iff, Entries.get?_put_of_ne (by decide),
    Entries.get?_put_self] at wraps
  rcases wraps with ⟨isObject, text, isOperator, only⟩
  cases before with
  | nil =>
    cases only
    have wrapsChild : wrapped? (.map entries) = some child :=
      wrapped?_eq_some_iff.2 ⟨isObject, text, isOperator, held⟩
    cases noWrapper.symm.trans wrapsChild
  | cons first before =>
    cases before <;> cases only

/-- The node with another child is no leaf either. -/
theorem Visits.leaf?_eq_none
    (visits : Visits child new node changed) : leaf? changed = none := by
  induction visits with
  | property noWrapper noBranch isObject held =>
    rw [leaf?_eq_none_iff] at noWrapper ⊢
    rw [branches_put (by decide) (by decide)]
    exact ⟨noWrapper.1, wrapped?_put_property held noWrapper.2⟩
  | items noWrapper noBranch isArray held =>
    rw [leaf?_eq_none_iff] at noWrapper ⊢
    rw [branches_put (by decide) (by decide),
      wrapped?_put (by decide) (by decide)]
    exact noWrapper
  | branch noWrapper isEntered held _ _ _ ih =>
    rw [leaf?_eq_none_iff] at noWrapper ⊢
    constructor
    · rcases branches_put_composite isEntered held _ with ⟨old, put⟩ | same
      · rw [old, List.forall_mem_append, List.forall_mem_cons] at noWrapper
        rw [put, List.forall_mem_append, List.forall_mem_cons]
        exact ⟨noWrapper.1.1, ih, noWrapper.1.2.2⟩
      · rw [same]
        exact noWrapper.1
    · rw [wrapped?_put isEntered.ne_type isEntered.ne_properties]
      exact noWrapper.2

theorem Visits.type_eq
    (visits : Visits child new node changed) :
    changed.field? "type" = node.field? "type" := by
  cases visits with
  | property => exact Entries.get?_put_of_ne (by decide) _ _
  | items => exact Entries.get?_put_of_ne (by decide) _ _
  | branch _ isEntered => exact Entries.get?_put_of_ne isEntered.ne_type.symm _ _

theorem Visits.hasContainerType
    (visits : Visits child new node changed)
    (isContainer : HasContainerType node) : HasContainerType changed := by
  rw [HasContainerType, visits.type_eq]
  exact isContainer

theorem Visits.holds
    {holds : Datum → Prop} (keeps : KeepsTextNames holds)
    (visits : Visits child new node changed) (here : holds node) :
    holds child := by
  induction visits with
  | property _ _ _ held =>
    refine (keeps _ here).2 _ (Schema.mem_parts_of_property held ?_)
    simp
  | items _ _ isArray held =>
    refine (keeps _ here).2 _ (Schema.mem_parts_of_items ?_ held)
    exact Schema.describesArray_of_type isArray
  | branch _ isEntered held first isContainer _ ih =>
    have entered := containerBranch?_of_first isEntered held first isContainer
    exact ih ((keeps _ here).2 _ (mem_parts_of_containerBranch? entered))

/-- Where a child is walked alike, so is the node that it is visited from. -/
theorem Visits.walkAlike
    {holds : Datum → Prop} (keeps : KeepsTextNames holds)
    (visits : Visits child new node changed) (here : holds node)
    (alike : WalkAlike root other child new) :
    WalkAlike root other node changed := by
  have newNoWrapper : leaf? changed = none := visits.leaf?_eq_none
  induction visits with
  | @property entries _ _ _ _ _ noWrapper noBranch isObject held =>
    apply walkAlike_of_succ
    intro more budget le texts
    rcases keeps entries here with ⟨names, each⟩
    rw [fieldsWithin_of_noBranch noWrapper noBranch,
      fieldsByType_of_object isObject held,
      fieldsWithin_of_noBranch newNoWrapper
        ((containerBranch?_put (by decide) (by decide)).trans noBranch),
      fieldsByType_of_object
        ((Entries.get?_put_of_ne (by decide) _ _).trans isObject)
        (Entries.get?_put_self _ _ _)]
    apply alike_propertyFields (names _ held)
    refine alike_of_property ?_ (alike more budget le)
    intro property member
    refine walkAlike_refl keeps (each _ ?_) more budget le
    exact Schema.mem_parts_of_property held (List.mem_map_of_mem member)
  | items noWrapper noBranch isArray held =>
    apply walkAlike_of_succ
    intro more budget le texts
    rw [fieldsWithin_of_noBranch noWrapper noBranch,
      fieldsByType_of_array isArray held,
      fieldsWithin_of_noBranch newNoWrapper
        ((containerBranch?_put (by decide) (by decide)).trans noBranch),
      fieldsByType_of_array
        ((Entries.get?_put_of_ne (by decide) _ _).trans isArray)
        (Entries.get?_put_self _ _ _)]
    exact alike_items (alike more budget le)
  | branch noWrapper isEntered held first isContainer inside ih =>
    apply walkAlike_of_succ
    intro more budget le texts
    have entered := containerBranch?_of_first isEntered held first isContainer
    have newContainer := inside.hasContainerType isContainer
    rw [fieldsWithin_of_branch noWrapper entered,
      fieldsWithin_of_branch newNoWrapper
        (containerBranch?_put_composite isEntered first newContainer)]
    have branchHolds :=
      (keeps _ here).2 _ (mem_parts_of_containerBranch? entered)
    exact ih branchHolds alike inside.leaf?_eq_none more budget le texts

theorem Exchanged.walkAlike
    {holds : Datum → Prop} (keeps : KeepsTextNames holds)
    {part newPart : Datum} (exchanged : Exchanged part newPart node changed)
    (here : holds node)
    (alike : holds part → WalkAlike root other part newPart) :
    WalkAlike root other node changed := by
  induction exchanged with
  | root => exact alike here
  | step visits _ ih =>
    exact visits.walkAlike keeps here (ih (visits.holds keeps here))

/-! ## Nodes beside the null type -/

/-- The null type. -/
def nullType : Datum := .object [("type", .str "null")]

/-- A branch beside the null type as the entries of an object. -/
def nullableEntries (composite : String) (node : Datum) : Entries :=
  [(.str composite, .list [nullType, node])]

/-- A node that may be null: a branch beside the null type. -/
def nullable (composite : String) (node : Datum) : Datum :=
  .map (nullableEntries composite node)

section Nullable

variable {composite : String}

theorem branches_nullable
    (isComposite : composite = "oneOf" ∨ composite = "anyOf") :
    branches (nullable composite node) = [nullType, node] := by
  rcases isComposite with rfl | rfl <;> rfl

theorem leaf?_nullType : leaf? nullType = none :=
  leaf?_eq_none rfl rfl

/-- A node that may be null is a leaf as the node is. -/
theorem leaf?_nullable
    (isComposite : composite = "oneOf" ∨ composite = "anyOf") :
    leaf? (nullable composite node) = leaf? node := by
  have noWrapper : wrapped? (nullable composite node) = none := by
    rcases isComposite with rfl | rfl <;> rfl
  rw [leaf?_eq, branches_nullable isComposite, noWrapper, List.findSome?_cons,
    leaf?_nullType, List.findSome?_singleton, Option.map_none, Option.or_none]

/-- Beside the null type a container is the first one. -/
theorem containerBranch?_nullable
    (isComposite : composite = "oneOf" ∨ composite = "anyOf")
    (isContainer : HasContainerType node) :
    containerBranch? (nullableEntries composite node) = some node := by
  have first : ∀ earlier ∈ [nullType], ¬ HasContainerType earlier := by
    decide
  have held :
      Entries.get? (.str composite) (nullableEntries composite node) =
        some (.list ([nullType] ++ [node])) := by
    rw [nullableEntries, Entries.get?_cons, if_pos (by simp)]
    rfl
  refine containerBranch?_of_first ?_ held first isContainer
  rcases isComposite with rfl | rfl
  · exact Or.inl rfl
  · exact Or.inr ⟨rfl, rfl⟩

theorem walkAlike_nullable
    {holds : Datum → Prop} (keeps : KeepsTextNames holds) (here : holds node)
    (isComposite : composite = "oneOf" ∨ composite = "anyOf")
    (shown : HasContainerType node ∨ (leaf? node).isSome = true) :
    WalkAlike root other node (nullable composite node) := by
  apply walkAlike_of_succ
  intro more budget le texts
  have sameLeaf : leaf? (.map (nullableEntries composite node)) = leaf? node :=
    leaf?_nullable isComposite
  cases found : leaf? node with
  | some leaf =>
    rcases exists_map_of_leaf? found with ⟨entries, rfl⟩
    rw [fieldsWithin_of_leaf found, fieldsWithin_of_leaf (sameLeaf.trans found)]
    exact alike_fieldAt _ leaf
  | none =>
    rw [found] at shown
    have isContainer : HasContainerType node :=
      shown.resolve_right Bool.false_ne_true
    rw [fieldsWithin_of_branch (sameLeaf.trans found)
      (containerBranch?_nullable isComposite isContainer)]
    exact
      walkAlike_refl keeps here (more + 1) budget (Nat.le_succ_of_le le) texts

end Nullable

/--
The fields of a schema stay the same when a node that the walk visits may be
null, and a field without a path is refused as before, if the walk does not go
too deep.  The node describes an object or an array, or it is a wrapper behind
layers none of which is hidden.
-/
theorem fieldsOf_nullable
    {schema changed node : Datum} {composite : String}
    (keys : schema.EachMap Entries.HasTextKeys)
    (isComposite : composite = "oneOf" ∨ composite = "anyOf")
    (shown : HasContainerType node ∨ BehindLayers HasOneLayer node)
    (exchanged : Exchanged node (nullable composite node) schema changed)
    (shallow : ¬ IsTooDeep (fieldsOf changed)) :
    fieldsOf schema = fieldsOf changed ∨
      fieldsOf schema = .error (.unaddressableField schema) ∧
        fieldsOf changed = .error (.unaddressableField changed) := by
  have alike : WalkAlike schema changed schema changed := by
    refine exchanged.walkAlike keepsTextNames_eachMap keys fun here => ?_
    refine walkAlike_nullable keepsTextNames_eachMap here isComposite ?_
    exact shown.imp_right isSome_leaf?_iff.2
  have outcomes :
      AlikeUnlessDeep schema changed (fieldsOf schema) (fieldsOf changed) :=
    alike (Schema.walkBudget Schema.depthLimit) _ (Nat.le_refl _) []
  exact outcomes.eq_or shallow

/-- A wrapper behind a layer. -/
def layered : Datum :=
  .object
    [("anyOf",
      .list [wrapperOf .greater (.object [("type", .str "integer")])])]

/-- A wrapper behind a layer that is hidden by an empty one. -/
def hidden : Datum :=
  .object
    [("oneOf", .list []),
      ("anyOf",
        .list [wrapperOf .greater (.object [("type", .str "integer")])])]

theorem exchanged_holderOf (property other : Datum) :
    Exchanged property other (holderOf property) (holderOf other) :=
  .step
    (@Visits.property _ [] [] (.str "p") property other
      (leaf?_holderOf property) rfl rfl rfl)
    .root

/-- A wrapper behind a layer may be null. -/
theorem fieldsOf_nullable_layered :
    fieldsOf (holderOf layered) =
      fieldsOf (holderOf (nullable "oneOf" layered)) := by
  have listed :
      fieldsOf (holderOf (nullable "oneOf" layered)) =
        .ok [⟨"p", some "integer", [.int 0]⟩] := by
    decide +kernel
  have keys :
      Datum.EachMap Entries.HasTextKeys (holderOf layered) :=
    Datum.eachMap_of_isJson (by decide)
  have behind : BehindLayers HasOneLayer layered :=
    .anyOf (fun _ held => by cases held) rfl List.mem_cons_self
      (.wrapper (isWrapper_wrapperOf _ _))
  have shallow :
      ¬ IsTooDeep (fieldsOf (holderOf (nullable "oneOf" layered))) := by
    rw [listed]
    exact not_isTooDeep_ok _
  rcases
    fieldsOf_nullable keys (Or.inl rfl) (Or.inr behind)
      (exchanged_holderOf _ _) shallow with
    same | ⟨-, refused⟩
  · exact same
  · cases listed.symm.trans refused

/-- A wrapper that is hidden is no longer found if it may be null. -/
theorem not_forall_fieldsOf_nullable :
    ¬ ∀ (schema changed node : Datum) (composite : String),
      schema.EachMap Entries.HasTextKeys →
        (composite = "oneOf" ∨ composite = "anyOf") →
          (HasContainerType node ∨ BehindLayers (fun _ => True) node) →
            Exchanged node (nullable composite node) schema changed →
              ¬ IsTooDeep (fieldsOf changed) →
                fieldsOf schema = fieldsOf changed ∨
                  fieldsOf schema = .error (.unaddressableField schema) ∧
                    fieldsOf changed =
                      .error (.unaddressableField changed) := by
  intro stays
  have found :
      fieldsOf (holderOf hidden) =
        .ok [⟨"p", some "integer", [.int 0]⟩] := by
    decide +kernel
  have lost :
      fieldsOf (holderOf (nullable "oneOf" hidden)) = .ok [] := by
    decide +kernel
  have keys : Datum.EachMap Entries.HasTextKeys (holderOf hidden) :=
    Datum.eachMap_of_isJson (by decide)
  have behind : BehindLayers (fun _ => True) hidden :=
    .anyOf trivial rfl List.mem_cons_self
      (.wrapper (isWrapper_wrapperOf _ _))
  have shallow :
      ¬ IsTooDeep (fieldsOf (holderOf (nullable "oneOf" hidden))) := by
    rw [lost]
    exact not_isTooDeep_ok _
  rcases
    stays _ _ hidden "oneOf" keys (Or.inl rfl) (Or.inr behind)
      (exchanged_holderOf _ _) shallow with
    same | ⟨refused, -⟩
  · rw [found, lost] at same
    cases same
  · cases found.symm.trans refused

end ApiAtlas.Filter
