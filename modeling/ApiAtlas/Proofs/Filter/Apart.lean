import ApiAtlas.Proofs.Data.Places
import ApiAtlas.Proofs.Data.Proper
import ApiAtlas.Proofs.Filter.Body
import Mathlib.Data.List.Pairwise

/-!
# Fields apart

The trails to two leaves of a schema part at an object, where they enter
different properties.  Hence the names of the paths of two fields differ
somewhere before either of them ends: a value that is selected for one field
never stands where a value for another field has to go through.
-/

namespace ApiAtlas.Filter

/-! ## Trails that part -/

/-- Trails that agree up to an object and enter different properties there. -/
def Fork (one other : List Step) : Prop :=
  ∃ common name another behindOne behindOther,
    one = common ++ .property name :: behindOne ∧
      other = common ++ .property another :: behindOther ∧
      ¬ name.same another = true

theorem fork_of_not_same
    {name another : Scalar} (different : ¬ name.same another = true)
    (behindOne behindOther : List Step) :
    Fork (.property name :: behindOne) (.property another :: behindOther) :=
  ⟨[], name, another, behindOne, behindOther, rfl, rfl, different⟩

theorem Fork.cons
    {one other : List Step} (fork : Fork one other) (step : Step) :
    Fork (step :: one) (step :: other) := by
  rcases fork with
    ⟨common, name, another, behindOne, behindOther, rfl, rfl, different⟩
  exact
    ⟨step :: common, name, another, behindOne, behindOther, rfl, rfl,
      different⟩

/-- A field of a node, emitted for the leaf behind a trail. -/
def EmittedAt (root : Datum) (parts : List Scalar) (node : Datum)
    (trail : List Step) (field : Field) : Prop :=
  ∃ leaf, LeafAt node trail leaf ∧ fieldFrom root parts trail leaf = .ok field

/-- Fields that are emitted for leaves whose trails part. -/
def Parted (root : Datum) (parts : List Scalar) (node : Datum)
    (one other : Field) : Prop :=
  ∃ trail another,
    EmittedAt root parts node trail one ∧
      EmittedAt root parts node another other ∧ Fork trail another

/-- Fields of leaves of a node, each two of which part. -/
structure AllParted (root : Datum) (parts : List Scalar) (node : Datum)
    (fields : List Field) : Prop where
  emitted : ∀ field ∈ fields, ∃ trail, EmittedAt root parts node trail field
  parted : fields.Pairwise (Parted root parts node)

section Walk

variable {root node inner : Datum} {parts innerParts : List Scalar}
  {entries : Entries} {fields : List Field}

/-- A step from a node to a part of it, as a path records it. -/
structure StepTo (root : Datum) (parts : List Scalar) (node : Datum)
    (step : Step) (innerParts : List Scalar) (inner : Datum) : Prop where
  leaf : ∀ trail leaf, LeafAt inner trail leaf → LeafAt node (step :: trail) leaf
  field : ∀ trail leaf,
    fieldFrom root parts (step :: trail) leaf =
      fieldFrom root innerParts trail leaf

theorem StepTo.emittedAt
    {step : Step} {trail : List Step} {field : Field}
    (stepTo : StepTo root parts node step innerParts inner)
    (emitted : EmittedAt root innerParts inner trail field) :
    EmittedAt root parts node (step :: trail) field := by
  rcases emitted with ⟨leaf, found, made⟩
  exact ⟨leaf, stepTo.leaf trail leaf found, (stepTo.field trail leaf).trans made⟩

theorem StepTo.parted
    {step : Step} {one other : Field}
    (stepTo : StepTo root parts node step innerParts inner)
    (parted : Parted root innerParts inner one other) :
    Parted root parts node one other := by
  rcases parted with ⟨trail, another, emittedOne, emittedOther, fork⟩
  exact
    ⟨step :: trail, step :: another, stepTo.emittedAt emittedOne,
      stepTo.emittedAt emittedOther, fork.cons step⟩

theorem allParted_nil : AllParted root parts node [] :=
  ⟨by simp, List.Pairwise.nil⟩

theorem allParted_singleton
    {trail : List Step} {field : Field}
    (emitted : EmittedAt root parts node trail field) :
    AllParted root parts node [field] :=
  ⟨List.forall_mem_singleton.2 ⟨trail, emitted⟩, List.pairwise_singleton _ _⟩

theorem AllParted.of_step
    {step : Step} (stepTo : StepTo root parts node step innerParts inner)
    (below : AllParted root innerParts inner fields) :
    AllParted root parts node fields := by
  constructor
  · intro field member
    rcases below.emitted field member with ⟨trail, emitted⟩
    exact ⟨step :: trail, stepTo.emittedAt emitted⟩
  · exact below.parted.imp stepTo.parted

/-- The branch that is entered leaves no trace. -/
theorem AllParted.of_branch
    (noWrapper : leaf? (.map entries) = none)
    (found : containerBranch? entries = some inner)
    (below : AllParted root parts inner fields) :
    AllParted root parts (.map entries) fields := by
  have emittedAt {trail : List Step} {field : Field}
      (emitted : EmittedAt root parts inner trail field) :
      EmittedAt root parts (.map entries) trail field := by
    rcases emitted with ⟨leaf, leafFound, made⟩
    exact ⟨leaf, .branch noWrapper found leafFound, made⟩
  constructor
  · intro field member
    rcases below.emitted field member with ⟨trail, emitted⟩
    exact ⟨trail, emittedAt emitted⟩
  · refine below.parted.imp ?_
    rintro one other ⟨trail, another, emittedOne, emittedOther, fork⟩
    exact
      ⟨trail, another, emittedAt emittedOne, emittedAt emittedOther, fork⟩

/-- The fields of all properties; those of two properties part at once. -/
theorem allParted_flatten
    {properties : Entries} {founds : List (List Field)}
    (apart :
      List.Pairwise (fun one other => ¬ one.1.same other.1 = true) properties)
    (below :
      List.Forall₂
        (fun property found =>
          StepTo root parts node (.property property.1)
              (parts ++ [property.1]) property.2 ∧
            AllParted root (parts ++ [property.1]) property.2 found)
        properties founds) :
    (∀ field ∈ founds.flatten, ∃ property ∈ properties, ∃ trail,
      EmittedAt root parts node (.property property.1 :: trail) field) ∧
      founds.flatten.Pairwise (Parted root parts node) := by
  induction below with
  | nil => exact ⟨by simp, List.Pairwise.nil⟩
  | @cons property found rest others here _ ih =>
    rcases here with ⟨stepTo, parted⟩
    rw [List.pairwise_cons] at apart
    rcases ih apart.2 with ⟨emittedBehind, partedBehind⟩
    have emittedHere :
        ∀ field ∈ found, ∃ trail,
          EmittedAt root parts node (.property property.1 :: trail) field := by
      intro field member
      rcases parted.emitted field member with ⟨trail, emitted⟩
      exact ⟨trail, stepTo.emittedAt emitted⟩
    rw [List.flatten_cons]
    constructor
    · intro field member
      rcases List.mem_append.1 member with first | behind
      · exact ⟨property, List.mem_cons_self, emittedHere field first⟩
      · rcases emittedBehind field behind with ⟨other, present, emitted⟩
        exact ⟨other, List.mem_cons_of_mem _ present, emitted⟩
    · rw [List.pairwise_append]
      refine ⟨(parted.of_step stepTo).parted, partedBehind, ?_⟩
      intro one first other behind
      rcases emittedHere one first with ⟨trail, emittedOne⟩
      rcases emittedBehind other behind with
        ⟨another, present, behindOther, emittedOther⟩
      exact
        ⟨_, _, emittedOne, emittedOther,
          fork_of_not_same (apart.1 another present) trail behindOther⟩

/-! ## The walk over a proper schema -/

theorem isProper_of_containerBranch?
    (proper : Datum.IsProper (.map entries))
    (found : containerBranch? entries = some inner) : inner.IsProper := by
  rw [containerBranch?, Option.bind_eq_some_iff] at found
  rcases found with ⟨items, listed, found⟩
  rw [Option.bind_eq_some_iff] at listed
  rcases listed with ⟨variants, held, isList⟩
  have variantsProper : variants.IsProper := by
    rcases Option.or_eq_some_iff.1 held with first | ⟨-, second⟩
    · rw [Option.filter_eq_some_iff] at first
      exact proper.of_get? first.1
    · exact proper.of_get? second
  cases variants with
  | list listed =>
    cases isList
    exact variantsProper.of_mem_list (List.mem_of_find?_eq_some found)
  | _ => cases isList

/-- A walk over a proper node lists fields that part. -/
theorem keptByWalk_allParted (root : Datum) :
    KeptByWalk root fun parts node fields =>
      node.IsProper → AllParted root parts node fields where
  nothing _ _ _ _ := allParted_nil
  wrapper _ _ leaf _ found made _ :=
    allParted_singleton ⟨leaf, .wrapper found, made⟩
  scalar _ _ _ _ noWrapper noBranch stated isScalar made _ :=
    allParted_singleton
      ⟨_, .scalar noWrapper noBranch stated isScalar, made⟩
  branch _ _ _ _ noWrapper found below proper :=
    .of_branch noWrapper found
      (below (isProper_of_containerBranch? proper found))
  array parts entries inner marked fields noWrapper noBranch isArray held
      marking below proper := by
    apply AllParted.of_step ⟨?_, ?_⟩ (below (proper.of_get? held))
    · exact .items
    · intro trail leaf found
      exact .items noWrapper noBranch isArray held found
    · intro trail leaf
      rw [fieldFrom, partsFrom, marking]
      rfl
  object parts entries properties founds noWrapper noBranch isObject held
      below proper := by
    cases proper.of_get? held with
    | map apart each =>
      have stepTo :
          ∀ property ∈ properties,
            StepTo root parts (.map entries) (.property property.1)
                (parts ++ [property.1]) property.2 ∧
              property.2.IsProper := by
        intro property member
        refine ⟨⟨?_, ?_⟩, each property member⟩
        · intro trail leaf found
          exact .property noWrapper noBranch isObject held member found
        · intro trail leaf
          rw [fieldFrom, partsFrom]
          rfl
      have parted :=
        ((List.forall₂_and_left _ _).2 ⟨stepTo, below⟩).imp
          fun _ _ here => And.intro here.1.1 (here.2 here.1.2)
      rcases allParted_flatten apart parted with ⟨emitted, parted⟩
      refine ⟨?_, parted⟩
      intro field member
      rcases emitted field member with ⟨property, -, trail, emitted⟩
      exact ⟨_, emitted⟩

end Walk

/-! ## Keys that diverge -/

theorem arraysAhead_append_property
    (trail : List Step) (name : Scalar) (behind : List Step) :
    arraysAhead (trail ++ .property name :: behind) = arraysAhead trail := by
  induction trail with
  | nil => rfl
  | cons step trail ih =>
    cases step with
    | property other => rfl
    | items => exact congrArg (· + 1) ih

theorem partsBehind_append_property
    (trail : List Step) (name : Scalar) (behind : List Step) :
    partsBehind (trail ++ .property name :: behind) =
      partsBehind trail ++ partsBehind (.property name :: behind) := by
  induction trail with
  | nil => rfl
  | cons step trail ih =>
    cases step with
    | property other =>
      rw [List.cons_append, partsBehind, arraysAhead_append_property, ih]
      rfl
    | items => exact ih

/-- The parts up to a property do not depend on what follows it. -/
theorem partsOf_append_property
    (trail : List Step) (name : Scalar) (behind : List Step) :
    partsOf (trail ++ .property name :: behind) =
      partsOf trail ++ partsBehind (.property name :: behind) := by
  rw [partsOf, arraysAhead_append_property, partsBehind_append_property,
    partsOf, List.append_assoc]

/-- The name is found again under the markers behind it. -/
theorem eq_of_markedTimes_eq
    {one other : List Char}
    (noMarkerOne : ¬ arrayMarker.toList <:+: one)
    (noMarkerOther : ¬ arrayMarker.toList <:+: other) {count times : Nat}
    (same : markedTimes one count = markedTimes other times) : one = other := by
  induction count generalizing times with
  | zero =>
    cases times with
    | zero => exact same
    | succ times =>
      rw [markedTimes, markedTimes] at same
      exact (noMarkerOne (same ▸ List.infix_append' _ _ [])).elim
  | succ count ih =>
    cases times with
    | zero =>
      rw [markedTimes, markedTimes] at same
      exact (noMarkerOther (same ▸ List.infix_append' _ _ [])).elim
    | succ times =>
      rw [markedTimes, markedTimes] at same
      exact ih (List.append_cancel_right same)

theorem Part.IsClear.name_eq_of_key_eq
    {one other : Part} (clearOne : one.IsClear) (clearOther : other.IsClear)
    (same : one.key = other.key) : one.name = other.name := by
  rw [Part.key, Part.key, Part.text, Part.text, ← String.toList_inj,
    String.toList_ofList, String.toList_ofList] at same
  exact
    String.toList_inj.1
      (eq_of_markedTimes_eq clearOne.noMarker clearOther.noMarker same)

theorem mem_namesOf_append_property
    (trail : List Step) (name : Scalar) (behind : List Step) :
    name ∈ namesOf (trail ++ .property name :: behind) := by
  induction trail with
  | nil => exact List.mem_cons_self
  | cons step trail ih =>
    cases step with
    | property other => exact List.mem_cons_of_mem _ ih
    | items => exact ih

/-- Trails that part lead to keys that diverge. -/
theorem Fork.diverge
    {one other : List Step} (fork : Fork one other)
    (clearOne : ∀ name ∈ namesOf one, IsClearName name)
    (clearOther : ∀ name ∈ namesOf other, IsClearName name) :
    Diverge ((partsOf one).map Part.key) ((partsOf other).map Part.key) := by
  rcases fork with
    ⟨common, name, another, behindOne, behindOther, rfl, rfl, different⟩
  have clearName := clearOne name (mem_namesOf_append_property _ _ _)
  have clearAnother := clearOther another (mem_namesOf_append_property _ _ _)
  cases clearName with
  | @text here noPoint noMarker =>
    cases clearAnother with
    | @text there noPointThere noMarkerThere =>
      rw [partsOf_append_property, partsOf_append_property, partsBehind,
        partsBehind, List.map_append, List.map_append, List.map_cons,
        List.map_cons]
      apply diverge_append_cons
      intro same
      have clearHere : Part.IsClear ⟨here, arraysAhead behindOne⟩ :=
        ⟨noPoint, noMarker⟩
      have clearThere : Part.IsClear ⟨there, arraysAhead behindOther⟩ :=
        ⟨noPointThere, noMarkerThere⟩
      have names : here = there := clearHere.name_eq_of_key_eq clearThere same
      exact different (Scalar.same_str_iff.2 (congrArg Scalar.str names))

/-- The fields of a proper schema whose names are clear lie apart. -/
theorem pairwise_diverge_of_fieldsOf
    {schema : Datum} {fields : List Field} (proper : schema.IsProper)
    (clear : ∀ trail leaf, LeafAt schema trail leaf →
      ∀ name ∈ namesOf trail, IsClearName name)
    (found : fieldsOf schema = .ok fields) :
    fields.Pairwise fun one other =>
      Diverge (pathNames one.path) (pathNames other.path) := by
  have parted := ((keptByWalk_allParted schema).of_fieldsWithin found proper).parted
  refine parted.imp ?_
  rintro one other
    ⟨trail, another, ⟨leaf, foundOne, madeOne⟩,
      ⟨otherLeaf, foundOther, madeOther⟩, fork⟩
  have clearOne := clear trail leaf foundOne
  have clearOther := clear another otherLeaf foundOther
  rw [pathNames_of_fieldFrom madeOne clearOne,
    pathNames_of_fieldFrom madeOther clearOther]
  exact fork.diverge clearOne clearOther

end ApiAtlas.Filter
