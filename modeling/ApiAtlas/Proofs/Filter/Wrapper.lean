import ApiAtlas.Filter.Field
import ApiAtlas.Proofs.Data.Access

/-!
# Operator wrappers behind branches

A wrapper may stand behind layers of branches.  A node is a leaf if one of its
branches is, or if it is a wrapper itself; the branches that count are the list
under the one composite member or, where no list stands there, the list under
the other.  So a wrapper behind layers makes a leaf if no object on the way to
it has a second list of branches that hides it.
-/

namespace ApiAtlas.Filter

variable {node : Datum} {leaf : Leaf} {entries : Entries}

theorem wrapped?_eq_some_iff {inner : Datum} :
    wrapped? (.map entries) = some inner ↔
      Entries.get? (.str "type") entries = some (.str "object") ∧
        ∃ name, (Operator.ofName? name).isSome = true ∧
          Entries.get? (.str "properties") entries =
            some (.map [(.str name, inner)]) := by
  rw [wrapped?]
  constructor
  · intro wraps
    split at wraps
    · next kind name other stated held =>
      split at wraps
      · next isWrapper =>
        cases wraps
        rw [Bool.and_eq_true] at isWrapper
        rw [stated, Datum.eq_str_of_isText isWrapper.1]
        exact ⟨rfl, name, isWrapper.2, held⟩
      · cases wraps
    · cases wraps
  · rintro ⟨isObject, name, isOperator, held⟩
    simp only [isObject, held, isOperator, Datum.isText, beq_self_eq_true,
      Bool.and_self, if_true]

/-- The first leaf among the branches counts, then the node itself. -/
theorem leaf?_eq (node : Datum) :
    leaf? node =
      ((branches node).findSome? leaf?).or
        ((wrapped? node).map Leaf.ofInner) := by
  have plain :
      ((branches node).attach.findSome? fun branch => leaf? branch.val) =
        (branches node).findSome? leaf? := by
    change (branches node).attach.findSome? (leaf? ∘ Subtype.val) = _
    rw [← List.findSome?_map, List.attach_map_subtype_val]
  rw [leaf?, plain]
  cases (branches node).findSome? leaf? <;> rfl

/-- A node is no leaf if none of its branches is and it is no wrapper. -/
theorem leaf?_eq_none_iff :
    leaf? node = none ↔
      (∀ branch ∈ branches node, leaf? branch = none) ∧
        wrapped? node = none := by
  rw [leaf?_eq, Option.or_eq_none_iff, List.findSome?_eq_none_iff,
    Option.map_eq_none_iff]

theorem leaf?_eq_none
    (noBranches : branches node = []) (noWrapper : wrapped? node = none) :
    leaf? node = none := by
  rw [leaf?_eq_none_iff, noBranches]
  exact ⟨List.forall_mem_nil _, noWrapper⟩

/-- A leaf is one of a branch, or made of what the node wraps. -/
theorem exists_of_leaf?
    (found : leaf? node = some leaf) :
    (∃ branch ∈ branches node, leaf? branch = some leaf) ∨
      ∃ inner, wrapped? node = some inner ∧ leaf = Leaf.ofInner inner := by
  rw [leaf?_eq, Option.or_eq_some_iff] at found
  rcases found with inBranch | ⟨-, here⟩
  · exact Or.inl (List.exists_of_findSome?_eq_some inBranch)
  · rw [Option.map_eq_some_iff] at here
    rcases here with ⟨inner, wraps, same⟩
    exact Or.inr ⟨inner, wraps, same.symm⟩

/-- A leaf comes from a wrapper, over one branch after the other. -/
@[elab_as_elim]
theorem leaf?_induction
    {motive : (node : Datum) → (leaf : Leaf) → leaf? node = some leaf → Prop}
    (wrapper : ∀ {node inner : Datum}, wrapped? node = some inner →
      ∀ found : leaf? node = some (Leaf.ofInner inner), motive node _ found)
    (branch : ∀ {node branch : Datum} {leaf : Leaf}, branch ∈ branches node →
      ∀ (below : leaf? branch = some leaf) (found : leaf? node = some leaf),
        motive branch leaf below → motive node leaf found)
    (node : Datum) (leaf : Leaf) (found : leaf? node = some leaf) :
    motive node leaf found := by
  induction size : sizeOf node using Nat.strongRecOn generalizing node with
  | ind _ ih =>
    subst size
    rcases exists_of_leaf? found with
      ⟨inside, isBranch, below⟩ | ⟨inner, wraps, rfl⟩
    · exact
        branch isBranch below found
          (ih _ (sizeOf_lt_of_mem_branches isBranch) inside below rfl)
    · exact wrapper wraps found

theorem isSome_leaf?_of_branch
    {branch : Datum} (isBranch : branch ∈ branches node)
    (isLeaf : (leaf? branch).isSome = true) : (leaf? node).isSome = true := by
  rw [← Option.ne_none_iff_isSome] at isLeaf ⊢
  intro none
  exact isLeaf ((leaf?_eq_none_iff.1 none).1 branch isBranch)

theorem isSome_leaf?_of_isWrapper
    (wrapper : isWrapper node = true) : (leaf? node).isSome = true := by
  rw [isWrapper, ← Option.ne_none_iff_isSome] at wrapper
  rw [← Option.ne_none_iff_isSome]
  intro none
  exact wrapper (leaf?_eq_none_iff.1 none).2

/-- Only an object is a leaf. -/
theorem exists_map_of_leaf?
    (found : leaf? node = some leaf) : ∃ entries, node = .map entries := by
  cases node with
  | map entries => exact ⟨entries, rfl⟩
  | _ =>
    rw [leaf?_eq_none rfl rfl] at found
    cases found

/-- The wrapper of a schema under the name of an operator. -/
def wrapperOf (operator : Operator) (inner : Datum) : Datum :=
  .object
    [("type", .str "object"), ("properties", .object [(operator.name, inner)])]

theorem isWrapper_wrapperOf (operator : Operator) (inner : Datum) :
    isWrapper (wrapperOf operator inner) = true := by
  have isOperator : (Operator.ofName? operator.name).isSome = true := by
    rw [Operator.ofName?_name, Option.isSome_some]
  have wraps : wrapped? (wrapperOf operator inner) = some inner :=
    wrapped?_eq_some_iff.2 ⟨rfl, operator.name, isOperator, rfl⟩
  rw [isWrapper, wraps, Option.isSome_some]

/-- An object with a single property, which is not named after an operator. -/
def holderOf (property : Datum) : Datum :=
  .object [("type", .str "object"), ("properties", .object [("p", property)])]

theorem leaf?_holderOf (property : Datum) : leaf? (holderOf property) = none :=
  leaf?_eq_none rfl rfl

/-! ## Layers -/

/--
A wrapper behind any number of layers of branches.  A layer under the second
composite member is passed only in objects that admit it.
-/
inductive BehindLayers (admits : Entries → Prop) : Datum → Prop where
  | wrapper {node : Datum} (isWrapper : isWrapper node = true) :
      BehindLayers admits node
  | oneOf {entries : Entries} {items : List Datum} {branch : Datum}
      (held : Entries.get? (.str "oneOf") entries = some (.list items))
      (member : branch ∈ items) (below : BehindLayers admits branch) :
      BehindLayers admits (.map entries)
  | anyOf {entries : Entries} {items : List Datum} {branch : Datum}
      (admitted : admits entries)
      (held : Entries.get? (.str "anyOf") entries = some (.list items))
      (member : branch ∈ items) (below : BehindLayers admits branch) :
      BehindLayers admits (.map entries)

/-- An object without a list of branches under the first composite member. -/
def HasOneLayer (entries : Entries) : Prop :=
  ∀ items, Entries.get? (.str "oneOf") entries ≠ some (.list items)

theorem branches_of_oneOf
    {items : List Datum}
    (held : Entries.get? (.str "oneOf") entries = some (.list items)) :
    branches (.map entries) = items := by
  rw [branches, Datum.field?, held]

theorem branches_of_anyOf
    {items : List Datum} (alone : HasOneLayer entries)
    (held : Entries.get? (.str "anyOf") entries = some (.list items)) :
    branches (.map entries) = items := by
  rw [branches, Datum.field?, Datum.field?, held]
  split
  · next others first => exact (alone others first).elim
  · rfl

/-- A wrapper behind layers none of which is hidden makes a leaf. -/
theorem BehindLayers.isSome_leaf?
    (behind : BehindLayers HasOneLayer node) : (leaf? node).isSome = true := by
  induction behind with
  | wrapper isWrapper => exact isSome_leaf?_of_isWrapper isWrapper
  | oneOf held member _ ih =>
    refine isSome_leaf?_of_branch ?_ ih
    rw [branches_of_oneOf held]
    exact member
  | anyOf alone held member _ ih =>
    refine isSome_leaf?_of_branch ?_ ih
    rw [branches_of_anyOf alone held]
    exact member

/-- What makes a leaf is a wrapper behind layers none of which is hidden. -/
theorem behindLayers_of_leaf?
    (found : leaf? node = some leaf) : BehindLayers HasOneLayer node := by
  induction node, leaf, found using leaf?_induction with
  | wrapper wraps _ =>
    exact .wrapper (Option.isSome_iff_exists.2 ⟨_, wraps⟩)
  | @branch node _ _ isBranch _ _ behind =>
    cases node with
    | map entries =>
      by_cases alone : HasOneLayer entries
      · rw [branches] at isBranch
        split at isBranch
        · next items first => exact (alone items first).elim
        · split at isBranch
          · next items held => exact .anyOf alone held isBranch behind
          · cases isBranch
      · rcases Classical.not_forall.1 alone with ⟨items, hides⟩
        have held := Classical.not_not.1 hides
        rw [branches_of_oneOf held] at isBranch
        exact .oneOf held isBranch behind
    | _ => cases isBranch

theorem isSome_leaf?_iff :
    (leaf? node).isSome = true ↔ BehindLayers HasOneLayer node := by
  constructor
  · intro isLeaf
    rcases Option.isSome_iff_exists.1 isLeaf with ⟨leaf, found⟩
    exact behindLayers_of_leaf? found
  · exact BehindLayers.isSome_leaf?

end ApiAtlas.Filter
