import ApiAtlas.Proofs.Filter.Path
import ApiAtlas.Proofs.Filter.Wrapper

/-!
# Bodies of filter fields

The path of a field leads back to the names of the properties on the way to
its leaf, and a value selected for the field stands under these names.  The
exception are arrays at the root, which make a key of their own, and arrays of
arrays, of whose markers all but one stay in a key.
-/

namespace ApiAtlas.Filter

/-- The body that holds a value under some names and an operator only. -/
def nested (operator : Operator) (value : Datum) : List Scalar → Entries
  | [] => [(.str operator.name, value)]
  | name :: rest => [(name, .map (nested operator value rest))]

section Nested

variable {operator : Operator} {value : Datum}

theorem putAt_nil (names : List String) :
    putAt operator value names [] = nested operator value (names.map .str) := by
  induction names with
  | nil => rfl
  | cons name rest ih =>
    rw [putAt, List.map_cons, nested, ← ih]
    rfl

theorem bodyOf_singleton (path : String) :
    bodyOf [⟨path, operator, value⟩] =
      nested operator value ((pathNames path).map .str) :=
  putAt_nil (pathNames path)

/-- A body is larger than the value that it holds. -/
theorem sizeOf_lt_nested (names : List Scalar) :
    sizeOf value < sizeOf (Datum.map (nested operator value names)) := by
  induction names with
  | nil =>
    have held :
        (Scalar.str operator.name, value) ∈ nested operator value [] :=
      List.mem_cons_self
    exact Datum.sizeOf_lt_of_mem_map held
  | cons name rest ih =>
    have held :
        (name, Datum.map (nested operator value rest)) ∈
          nested operator value (name :: rest) :=
      List.mem_cons_self
    exact Nat.lt_trans ih (Datum.sizeOf_lt_of_mem_map held)

/-- The value under an operator is no body that holds the value again. -/
theorem nested_nil_ne_cons (name : Scalar) (rest : List Scalar) :
    nested operator value [] ≠ nested operator value (name :: rest) := by
  intro same
  have valueEq : value = .map (nested operator value rest) :=
    (Prod.mk.inj (List.cons.inj same).1).2
  have larger :
      sizeOf value < sizeOf (Datum.map (nested operator value rest)) :=
    sizeOf_lt_nested rest
  rw [← valueEq] at larger
  exact Nat.lt_irrefl _ larger

/-- Different names make different bodies. -/
theorem nested_inj {names others : List Scalar} :
    nested operator value names = nested operator value others ↔
      names = others := by
  constructor
  · intro same
    induction names generalizing others with
    | nil =>
      cases others with
      | nil => rfl
      | cons name rest => exact (nested_nil_ne_cons name rest same).elim
    | cons name rest ih =>
      cases others with
      | nil => exact (nested_nil_ne_cons name rest same.symm).elim
      | cons other others =>
        have entryEq := Prod.mk.inj (List.cons.inj same).1
        rw [entryEq.1, ih (Datum.map.inj entryEq.2)]
  · rintro rfl
    rfl

end Nested

/-! ## Fields of leaves -/

/-- A field of a schema and the steps to the leaf that it is emitted for. -/
def IsFieldAt (schema : Datum) (trail : List Step) (field : Field) : Prop :=
  ∃ leaf,
    LeafAt schema trail leaf ∧ fieldFrom schema [] trail leaf = .ok field

/-- The path of a field joins the parts and is not empty. -/
theorem path_of_fieldAt
    {root : Datum} {parts : List Scalar} {leaf : Leaf} {field : Field}
    (made : fieldAt root parts leaf = .ok field) :
    joinPath parts = .ok field.path ∧ field.path ≠ "" := by
  rcases exists_of_bind_eq_ok made with ⟨path, joined, made⟩
  split at made
  · cases made
  · next nonempty =>
    rcases exists_of_bind_eq_ok made with ⟨type, -, same⟩
    cases same
    exact ⟨joined, nonempty⟩

/-- The parts of the path to a leaf. -/
def partsOf (trail : List Step) : List Part :=
  markLastTimes (arraysAhead trail) [] ++ partsBehind trail

theorem isClear_of_mem_partsOf
    {trail : List Step} (clear : ∀ name ∈ namesOf trail, IsClearName name) :
    ∀ part ∈ partsOf trail, part.IsClear := by
  rw [partsOf, List.forall_mem_append]
  refine ⟨?_, isClear_of_mem_partsBehind clear⟩
  cases arraysAhead trail with
  | zero => simp [markLastTimes]
  | succ count =>
    rw [markLastTimes_nil_succ, List.forall_mem_singleton]
    exact ⟨by simp, by simp [arrayMarker]⟩

/-- The path of a field is cut into the keys of its parts. -/
theorem pathNames_of_fieldFrom
    {root : Datum} {trail : List Step} {leaf : Leaf} {field : Field}
    (made : fieldFrom root [] trail leaf = .ok field)
    (clear : ∀ name ∈ namesOf trail, IsClearName name) :
    pathNames field.path = (partsOf trail).map Part.key := by
  have reached : partsFrom [] trail = .ok (shown (partsOf trail)) :=
    partsFrom_shown [] clear
  rw [fieldFrom, reached] at made
  rcases path_of_fieldAt made with ⟨joined, nonempty⟩
  have shownEq :
      shown (partsOf trail) = ((partsOf trail).map Part.text).map .str := by
    rw [shown, List.map_map]
    rfl
  rw [shownEq, joinPath_texts, Except.ok.injEq] at joined
  have someParts : partsOf trail ≠ [] := by
    intro none
    rw [none] at joined
    exact nonempty joined.symm
  rw [← joined,
    pathNames_intercalate someParts (isClear_of_mem_partsOf clear)]

/-- What is selected for a field stands under the keys of its parts. -/
theorem bodyOf_field
    {schema : Datum} {trail : List Step} {field : Field}
    (isField : IsFieldAt schema trail field)
    (plain : ∀ name ∈ namesOf trail, IsPlain name)
    (operator : Operator) (value : Datum) :
    bodyOf [⟨field.path, operator, value⟩] =
      nested operator value ((partsOf trail).map fun part => .str part.key) := by
  rcases isField with ⟨leaf, -, made⟩
  have clear : ∀ name ∈ namesOf trail, IsClearName name :=
    fun name member => (plain name member).isClearName
  rw [bodyOf_singleton, pathNames_of_fieldFrom made clear, List.map_map]
  rfl

theorem head?_ne_items_iff (trail : List Step) :
    trail.head? ≠ some .items ↔ arraysAhead trail = 0 := by
  cases trail with
  | nil => simp [arraysAhead]
  | cons step rest => cases step <;> simp [arraysAhead]

/--
The keys are the names unless arrays lie at the root or within arrays.  Arrays
at the root make one key more than there are names.
-/
theorem map_key_partsOf_iff
    {trail : List Step} (plain : ∀ name ∈ namesOf trail, IsPlain name) :
    (partsOf trail).map (fun part => .str part.key) = namesOf trail ↔
      trail.head? ≠ some .items ∧ ¬ [.items, .items] <:+: trail := by
  have names :=
    map_name_partsBehind fun name member => (plain name member).isClearName
  rw [head?_ne_items_iff, items_items_infix_iff, partsOf]
  cases arraysAhead trail with
  | zero =>
    rw [markLastTimes, List.nil_append, ← names, List.map_inj_left]
    simp only [Scalar.str.injEq, Part.key_eq_name_iff, not_or, not_exists,
      not_and, Nat.not_le, true_and]
    constructor
    · intro few
      refine ⟨by decide, ?_⟩
      intro part member
      exact Nat.lt_succ_of_le (few part member)
    · rintro ⟨-, few⟩ part member
      exact Nat.le_of_lt_succ (few part member)
  | succ count =>
    rw [markLastTimes_nil_succ, ← names]
    constructor
    · intro same
      have lengths := congrArg List.length same
      simp at lengths
    · rintro ⟨none, -⟩
      cases none

/--
Every field of a schema is emitted for a leaf, and every leaf has a field.
What is selected for the field stands under the names of the properties on the
way to its leaf if and only if no array is at the root and no array holds
arrays.
-/
theorem fieldsOf_roundTrip
    {schema : Datum} {fields : List Field}
    (found : fieldsOf schema = .ok fields) :
    (∀ field ∈ fields, ∃ trail, IsFieldAt schema trail field) ∧
      (∀ trail leaf, LeafAt schema trail leaf →
        ∃ field ∈ fields, IsFieldAt schema trail field) ∧
      ∀ trail field, IsFieldAt schema trail field →
        (∀ name ∈ namesOf trail, IsPlain name) →
          ∀ (operator : Operator) (value : Datum),
            (bodyOf [⟨field.path, operator, value⟩] =
                nested operator value (namesOf trail) ↔
              trail.head? ≠ some .items ∧
                ¬ [.items, .items] <:+: trail) := by
  have lists := lists_of_fieldsWithin found
  refine ⟨?_, ?_, ?_⟩
  · intro field member
    rcases lists.sound field member with ⟨trail, leaf, leafFound, made⟩
    exact ⟨trail, leaf, leafFound, made⟩
  · intro trail leaf leafFound
    rcases lists.complete trail leaf leafFound with ⟨field, member, made⟩
    exact ⟨field, member, leaf, leafFound, made⟩
  · intro trail field isField plain operator value
    rw [bodyOf_field isField plain, nested_inj, map_key_partsOf_iff plain]

/-! ## Texts in arrays -/

/-- The schema of texts in some arrays, each within the one before. -/
def arraysOfTexts : Nat → Entries
  | 0 => Fields.toEntries [("type", .str "string")]
  | count + 1 =>
    Fields.toEntries
      [("type", .str "array"), ("items", .map (arraysOfTexts count))]

/-- The schema of an object with such arrays as its only property. -/
def holderOfArrays (count : Nat) : Entries :=
  Fields.toEntries
    [("type", .str "object"),
      ("properties", .object [("p", .map (arraysOfTexts count))])]

/-- The steps to the texts in the property. -/
def trailToTexts (count : Nat) : List Step :=
  .property (.str "p") :: List.replicate count .items

theorem leafAt_arraysOfTexts (count : Nat) :
    LeafAt (.map (arraysOfTexts count)) (List.replicate count .items)
      ⟨.str "string", none⟩ := by
  induction count with
  | zero =>
    exact
      .scalar (leaf?_eq_none (by decide) (by decide)) (by decide) rfl
        (by decide)
  | succ count ih =>
    exact .items (leaf?_eq_none rfl rfl) rfl rfl rfl ih

theorem leafAt_holderOfArrays (count : Nat) :
    LeafAt (.map (holderOfArrays count)) (trailToTexts count)
      ⟨.str "string", none⟩ := by
  refine .property (leaf?_eq_none rfl rfl) rfl rfl rfl ?_
    (leafAt_arraysOfTexts count)
  exact List.mem_singleton_self _

theorem namesOf_trailToTexts (count : Nat) :
    namesOf (trailToTexts count) = [.str "p"] := by
  have noNames : namesOf (List.replicate count .items) = [] := by
    induction count with
    | zero => rfl
    | succ count ih => exact ih
  rw [trailToTexts, namesOf, noNames]

theorem plain_trailToTexts (count : Nat) :
    ∀ name ∈ namesOf (trailToTexts count), IsPlain name := by
  rw [namesOf_trailToTexts, List.forall_mem_singleton]
  exact .text (by decide) (by decide) (by decide)

/-- Texts in an array are found again under the name of the property. -/
theorem fieldsOf_roundTrip_arrayOfTexts :
    bodyOf [⟨"p[]", .equal, .int 1⟩] =
      nested .equal (.int 1) [.str "p"] := by
  have found :
      fieldsOf (.map (holderOfArrays 1)) =
        .ok [⟨"p[]", some "string", [.str "example"]⟩] := by
    decide +kernel
  have isField :
      IsFieldAt (.map (holderOfArrays 1)) (trailToTexts 1)
        ⟨"p[]", some "string", [.str "example"]⟩ :=
    ⟨_, leafAt_holderOfArrays 1, by decide +kernel⟩
  exact
    ((fieldsOf_roundTrip found).2.2 _ _ isField (plain_trailToTexts 1) .equal
      (.int 1)).2 (by decide)

/-- Texts in an array of arrays are found under a name with a marker. -/
theorem not_forall_bodyOf_field :
    ¬ ∀ (schema : Datum) (fields : List Field),
      fieldsOf schema = .ok fields →
        schema.field? "type" = some (.str "object") →
          ∀ trail field, field ∈ fields → IsFieldAt schema trail field →
            (∀ name ∈ namesOf trail, IsPlain name) →
              ∀ (operator : Operator) (value : Datum),
                bodyOf [⟨field.path, operator, value⟩] =
                  nested operator value (namesOf trail) := by
  intro returns
  have found :
      fieldsOf (.map (holderOfArrays 2)) =
        .ok [⟨"p[][]", some "string", [.str "example"]⟩] := by
    decide +kernel
  have isField :
      IsFieldAt (.map (holderOfArrays 2)) (trailToTexts 2)
        ⟨"p[][]", some "string", [.str "example"]⟩ :=
    ⟨_, leafAt_holderOfArrays 2, by decide +kernel⟩
  have returned :=
    returns _ _ found rfl _ _ List.mem_cons_self isField
      (plain_trailToTexts 2) .equal (.int 1)
  revert returned
  decide +kernel

end ApiAtlas.Filter
