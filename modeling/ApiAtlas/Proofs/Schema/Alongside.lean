import ApiAtlas.Proofs.Schema.Example

/-!
# Examples of an object and of what it becomes

Inlining replaces the parts of an object.  If each part and what it becomes
have examples side by side, so have the object and what it becomes: examples
are looked for in the same members in the same order.

They are the same examples but for one case.  Items that are a reference count
as present, while what the reference leads to may be empty: the array then has
an item before inlining and none after it.
-/

namespace ApiAtlas.Schema

/-! ## Objects from which examples can be made up -/

/-- An object whose members have the kinds that examples are made up from. -/
structure WellFormed (entries : Entries) : Prop where
  /-- The items of an array are absent, empty or an object. -/
  items : describesArray entries = true →
    ∀ items, Entries.get? (.str "items") entries = some items →
      items.isTruthy = true → ∃ inner, items = .map inner
  properties : ∀ held, Entries.get? (.str "properties") entries = some held →
    ∃ named, held = .map named
  choices : ∀ held, Entries.get? (.str "enum") entries = some held →
    ∃ listed, held = .list listed

/-- Items that are present in an array are not empty behind their references. -/
def StatesItems (definitions : Datum) (entries : Entries) : Prop :=
  describesArray entries = true →
    ∀ items target, Entries.get? (.str "items") entries = some items →
      items.isTruthy = true → Resolves definitions items target →
        target.isTruthy = true

/-! ## Examples side by side -/

/-- Outcomes that give examples, the same ones under a condition. -/
def Alongside (alike : Prop) (one other : Except Fault (List Datum)) : Prop :=
  ∃ found others, one = .ok found ∧ other = .ok others ∧
    (found = [] ↔ others = []) ∧ (alike → others = found)

variable {alike : Prop} {walk otherWalk : Datum → Except Fault (List Datum)}
  {becomes : Datum → Datum → Prop} {entries others : Entries}

theorem alongside_ok {found : List Datum} :
    Alongside alike (.ok found) (.ok found) :=
  ⟨found, found, rfl, rfl, Iff.rfl, fun _ => rfl⟩

theorem alongside_branchExamples
    {branches news : List Datum}
    (each :
      List.Forall₂ (fun part new => Alongside alike (walk part) (otherWalk new))
        branches news) :
    Alongside alike (branchExamples walk branches)
      (branchExamples otherWalk news) := by
  induction each with
  | nil => exact alongside_ok
  | cons here _ ih =>
    rcases here with ⟨found, founds, one, other, empty, same⟩
    rcases ih with
      ⟨behind, behinds, oneBehind, otherBehind, emptyBehind, sameBehind⟩
    refine ⟨found ++ behind, founds ++ behinds, ?_, ?_, ?_, ?_⟩
    · rw [branchExamples, one, oneBehind]
      rfl
    · rw [branchExamples, other, otherBehind]
      rfl
    · rw [List.append_eq_nil_iff, List.append_eq_nil_iff, empty, emptyBehind]
    · intro holds
      rw [same holds, sameBehind holds]

/--
Objects of which the other is what inlining makes of the one, and whose parts
have examples side by side.
-/
def PartsAlongside (alike : Prop) (definitions : Datum)
    (walk otherWalk : Datum → Except Fault (List Datum))
    (entries others : Entries) : Prop :=
  Replaced
    (fun part new =>
      InlinesTo definitions part new ∧
        Alongside alike (walk part) (otherWalk new))
    partMembers entries others

section Parts

variable {definitions : Datum}

theorem alongside_compositeExamples
    (replaced : PartsAlongside alike definitions walk otherWalk entries others)
    {members : List String} (composite : members ⊆ compositeMembers) :
    Alongside alike (compositeExamples walk entries members)
      (compositeExamples otherWalk others members) := by
  induction members with
  | nil => exact alongside_ok
  | cons member rest ih =>
    rw [List.cons_subset] at composite
    have behind := ih composite.2
    have isMember : member ∈ partMembers :=
      List.mem_append_left _ composite.1
    have holds := holding?_of_composite entries composite.1
    rw [compositeExamples, compositeExamples]
    cases held : Entries.get? (.str member) entries with
    | none =>
      rw [held] at holds
      rw [replaced.get?_eq fun _ => holds, held]
      exact behind
    | some value =>
      rw [held] at holds
      cases value with
      | list branches =>
        rcases replaced.held member isMember _ holds with
          ⟨news, each, becomes⟩
        have here :
            Alongside alike (branchExamples walk branches)
              (branchExamples otherWalk news) :=
          alongside_branchExamples (each.imp fun _ _ both => both.2)
        rcases here with ⟨found, founds, one, other, empty, same⟩
        rw [becomes]
        simp only [Holding.refill, one, other, bind, Except.bind]
        cases found with
        | nil =>
          rw [empty.1 rfl]
          exact behind
        | cons first more =>
          cases founds with
          | nil => cases empty.2 rfl
          | cons => exact ⟨_, _, rfl, rfl, by simp, same⟩
      | _ =>
        rw [replaced.get?_eq fun _ => holds, held]
        exact behind

theorem alongside_exampleObject
    {named : Entries} {news : List Datum}
    (gives : ∀ node found, walk node = .ok found → found ≠ [])
    (otherGives : ∀ node found, otherWalk node = .ok found → found ≠ [])
    (each :
      List.Forall₂ (fun part new => Alongside alike (walk part) (otherWalk new))
        (named.map Prod.snd) news)
    {object otherObject : Entries} (start : alike → otherObject = object) :
    ∃ made otherMade,
      exampleObject walk object named = .ok made ∧
        exampleObject otherWalk otherObject
            (named.zipWith (fun entry part => (entry.1, part)) news) =
          .ok otherMade ∧
        (alike → otherMade = made) := by
  induction named generalizing news object otherObject with
  | nil => exact ⟨object, otherObject, rfl, rfl, start⟩
  | cons entry rest ih =>
    rw [List.map_cons, List.forall₂_cons_left_iff] at each
    rcases each with ⟨new, behind, here, below, rfl⟩
    rcases here with ⟨found, founds, one, other, -, same⟩
    rcases List.exists_cons_of_ne_nil (gives _ _ one) with ⟨first, _, rfl⟩
    rcases List.exists_cons_of_ne_nil (otherGives _ _ other) with
      ⟨otherFirst, _, rfl⟩
    have next :
        alike →
          Entries.put entry.1 otherFirst otherObject =
            Entries.put entry.1 first object := by
      intro holds
      cases same holds
      rw [start holds]
    rcases ih below next with ⟨made, otherMade, oneMade, otherMadeEq, alikeMade⟩
    refine ⟨made, otherMade, ?_, ?_, alikeMade⟩
    · rw [exampleObject, one]
      exact oneMade
    · rw [List.zipWith_cons_cons, exampleObject, other]
      exact otherMadeEq

theorem Replaced.get?_eq_of_notMem
    {members : List String} (replaced : Replaced becomes members entries others)
    {text : String} (noPart : text ∉ members) :
    Entries.get? (.str text) others = Entries.get? (.str text) entries :=
  replaced.get?_eq fun isMember => (noPart isMember).elim

/-- Stated examples are kept. -/
theorem statedExamples?_eq
    (replaced : Replaced becomes partMembers entries others) :
    statedExamples? others = statedExamples? entries := by
  have keeps (text : String) (noPart : text ∉ partMembers) :=
    replaced.get?_eq_of_notMem noPart
  rw [statedExamples?, statedExamples?, keeps "example" (by decide),
    keeps "examples" (by decide)]

/-- The value that is made up without parts is that of the original. -/
theorem fallbackValue_eq
    (replaced : Replaced becomes partMembers entries others) :
    fallbackValue others = fallbackValue entries := by
  have keeps (text : String) (noPart : text ∉ partMembers) :=
    replaced.get?_eq_of_notMem noPart
  rw [fallbackValue, fallbackValue, keeps "type" (by decide),
    keeps "enum" (by decide), keeps "minimum" (by decide)]

theorem exists_fallbackValue
    (choices : ∀ held, Entries.get? (.str "enum") entries = some held →
      ∃ listed, held = .list listed) :
    ∃ value, fallbackValue entries = .ok value := by
  rw [fallbackValue]
  split
  · cases found : Entries.get? (.str "enum") entries with
    | none => exact ⟨_, rfl⟩
    | some held =>
      rcases choices held found with ⟨listed, rfl⟩
      cases listed with
      | nil => exact ⟨_, rfl⟩
      | cons first rest => exact ⟨first, rfl⟩
  · split <;> exact ⟨_, rfl⟩
  · split <;> exact ⟨_, rfl⟩
  · exact ⟨_, rfl⟩
  · exact ⟨_, rfl⟩

/-- A value counts as present after inlining if what it refers to does. -/
theorem exists_resolved_of_inlinesTo
    {node result : Datum} (inlined : InlinesTo definitions node result) :
    ∃ seen, Resolves definitions node seen ∧
      result.isTruthy = seen.isTruthy := by
  rcases exists_matches_of_inlinesTo inlined with ⟨seen, resolved, matching⟩
  refine ⟨seen, resolved, ?_⟩
  cases matching with
  | value => rfl
  | object _ replaced => cases replaced.agree <;> rfl

/-! ## Objects and arrays -/

theorem typeExamples_of_properties
    {named : Entries}
    (isObject : Entries.get? (.str "type") entries = some (.str "object"))
    (held : Entries.get? (.str "properties") entries = some (.map named)) :
    typeExamples walk entries =
      (exampleObject walk [] named).map fun object => [.map object] := by
  unfold typeExamples
  split
  · rw [held]
    cases named with
    | nil => rfl
    | cons entry rest =>
      change (exampleObject walk [] (entry :: rest) >>= fun object =>
        pure [Datum.map object]) = _
      cases exampleObject walk [] (entry :: rest) <;> rfl
  · next isArray => simp [isArray] at isObject
  · next noObject _ => exact (noObject isObject).elim

theorem typeExamples_of_no_properties
    (isObject : Entries.get? (.str "type") entries = some (.str "object"))
    (absent : Entries.get? (.str "properties") entries = none) :
    typeExamples walk entries = .ok [.map []] := by
  unfold typeExamples
  split
  · rw [absent]
  · next isArray => simp [isArray] at isObject
  · next noObject _ => exact (noObject isObject).elim

/-- The array of the first of some examples. -/
def arrayOfFirst : List Datum → Except Fault (List Datum)
  | first :: _ => .ok [.list [first]]
  | [] => misused .missingPosition

theorem typeExamples_of_items
    {items : Datum}
    (isArray : Entries.get? (.str "type") entries = some (.str "array"))
    (held : Entries.get? (.str "items") entries = some items) :
    typeExamples walk entries =
      if items.isTruthy then walk items >>= arrayOfFirst
      else .ok [.list []] := by
  unfold typeExamples
  split
  · next isObject => simp [isObject] at isArray
  · rw [held]
    cases present : items.isTruthy with
    | false => simp [present]
    | true =>
      simp only [present, Bool.not_true, if_true, Bool.false_eq_true, if_false]
      cases walk items with
      | error fault => rfl
      | ok found => cases found <;> rfl
  · next noArray => exact (noArray isArray).elim

theorem typeExamples_of_no_items
    (isArray : Entries.get? (.str "type") entries = some (.str "array"))
    (absent : Entries.get? (.str "items") entries = none) :
    typeExamples walk entries = .ok [.list []] := by
  unfold typeExamples
  split
  · next isObject => simp [isObject] at isArray
  · rw [absent]
  · next noArray => exact (noArray isArray).elim

theorem typeExamples_of_fallback
    (noObject : Entries.get? (.str "type") entries ≠ some (.str "object"))
    (noArray : Entries.get? (.str "type") entries ≠ some (.str "array")) :
    typeExamples walk entries =
      (fallbackValue entries).map fun value => [value] := by
  unfold typeExamples
  split
  · next same => exact (noObject same).elim
  · next same => exact (noArray same).elim
  · cases fallbackValue entries <;> rfl

theorem alongside_objectExamples
    (replaced : PartsAlongside alike definitions walk otherWalk entries others)
    (gives : ∀ node found, walk node = .ok found → found ≠ [])
    (otherGives : ∀ node found, otherWalk node = .ok found → found ≠ [])
    (properties : ∀ held, Entries.get? (.str "properties") entries = some held →
      ∃ named, held = .map named)
    (isObject : Entries.get? (.str "type") entries = some (.str "object"))
    (otherIsObject : Entries.get? (.str "type") others = some (.str "object")) :
    Alongside alike (typeExamples walk entries)
      (typeExamples otherWalk others) := by
  cases held : Entries.get? (.str "properties") entries with
  | none =>
    have absent : Entries.get? (.str "properties") others = none :=
      (replaced.agree.get?_eq_none_iff _).2 held
    rw [typeExamples_of_no_properties isObject held,
      typeExamples_of_no_properties otherIsObject absent]
    exact alongside_ok
  | some value =>
    rcases properties value held with ⟨named, rfl⟩
    have holds : holding? entries "properties" = some (.properties named) := by
      rw [holding?_properties, held]
    rcases replaced.held "properties" (by decide) _ holds with
      ⟨news, each, becomes⟩
    have inside :
        List.Forall₂
          (fun part new => Alongside alike (walk part) (otherWalk new))
          (named.map Prod.snd) news :=
      each.imp fun _ _ both => both.2
    have start : alike → ([] : Entries) = [] := fun _ => rfl
    rcases alongside_exampleObject gives otherGives inside start with
      ⟨made, otherMade, one, other, same⟩
    rw [typeExamples_of_properties isObject held,
      typeExamples_of_properties otherIsObject becomes, one, other]
    refine ⟨[.map made], [.map otherMade], rfl, rfl, by simp, ?_⟩
    intro condition
    rw [same condition]

/-- An empty value is kept as it is. -/
theorem eq_of_inlinesTo_of_not_isTruthy
    {node result : Datum} (inlined : InlinesTo definitions node result)
    (empty : node.isTruthy = false) : result = node := by
  rcases exists_matches_of_inlinesTo inlined with ⟨seen, resolved, matching⟩
  have isSeen : seen = node := by
    cases resolved with
    | value => rfl
    | follow isReference =>
      cases node with
      | map entries =>
        rw [Datum.isTruthy, Bool.not_eq_false', List.isEmpty_iff] at empty
        subst empty
        cases isReference
      | _ => cases isReference
  subst isSeen
  cases matching with
  | value => rfl
  | object _ replaced =>
    rw [Datum.isTruthy, Bool.not_eq_false', List.isEmpty_iff] at empty
    subst empty
    cases replaced.agree
    rfl

/-- The items of an array are inlined where they are an object. -/
theorem PartsAlongside.exists_items
    (replaced : PartsAlongside alike definitions walk otherWalk entries others)
    (describes : describesArray entries = true) {inner : Entries}
    (held : Entries.get? (.str "items") entries = some (.map inner)) :
    ∃ new, Entries.get? (.str "items") others = some new ∧
      InlinesTo definitions (.map inner) new ∧
      Alongside alike (walk (.map inner)) (otherWalk new) := by
  have holds : holding? entries "items" = some (.items inner) := by
    rw [holding?_items, describes, held]
  rcases replaced.held "items" (by decide) _ holds with ⟨news, each, becomes⟩
  cases each with
  | cons here none =>
    cases none
    exact ⟨_, becomes, here⟩

/-- Items that are empty stay as they are. -/
theorem PartsAlongside.emptyItems
    (replaced : PartsAlongside alike definitions walk otherWalk entries others)
    (describes : describesArray entries = true) {items : Datum}
    (held : Entries.get? (.str "items") entries = some items)
    (empty : items.isTruthy = false) :
    Entries.get? (.str "items") others = some items := by
  by_cases isObject : ∃ inner, items = .map inner
  · rcases isObject with ⟨inner, rfl⟩
    rcases replaced.exists_items describes held with ⟨new, becomes, inlined, -⟩
    rw [becomes, eq_of_inlinesTo_of_not_isTruthy inlined empty]
  · rw [not_exists] at isObject
    have holds : holding? entries "items" = none := by
      rw [holding?_items, describes, held]
      cases items with
      | map inner => exact (isObject inner rfl).elim
      | _ => rfl
    rw [replaced.get?_eq fun _ => holds, held]

theorem alongside_arrayExamples
    (replaced : PartsAlongside alike definitions walk otherWalk entries others)
    (gives : ∀ node found, walk node = .ok found → found ≠ [])
    (otherGives : ∀ node found, otherWalk node = .ok found → found ≠ [])
    (items : describesArray entries = true →
      ∀ items, Entries.get? (.str "items") entries = some items →
        items.isTruthy = true → ∃ inner, items = .map inner)
    (states : alike → StatesItems definitions entries)
    (isArray : Entries.get? (.str "type") entries = some (.str "array"))
    (otherIsArray : Entries.get? (.str "type") others = some (.str "array")) :
    Alongside alike (typeExamples walk entries)
      (typeExamples otherWalk others) := by
  have describes := describesArray_of_type isArray
  cases held : Entries.get? (.str "items") entries with
  | none =>
    have absent : Entries.get? (.str "items") others = none :=
      (replaced.agree.get?_eq_none_iff _).2 held
    rw [typeExamples_of_no_items isArray held,
      typeExamples_of_no_items otherIsArray absent]
    exact alongside_ok
  | some value =>
    rw [typeExamples_of_items isArray held]
    cases present : value.isTruthy with
    | false =>
      have becomes := replaced.emptyItems describes held present
      rw [typeExamples_of_items otherIsArray becomes, present]
      exact alongside_ok
    | true =>
      rcases items describes value held present with ⟨inner, rfl⟩
      rcases replaced.exists_items describes held with
        ⟨new, becomes, inlined, found, founds, one, other, -, same⟩
      rcases List.exists_cons_of_ne_nil (gives _ _ one) with ⟨first, _, rfl⟩
      rcases List.exists_cons_of_ne_nil (otherGives _ _ other) with
        ⟨otherFirst, _, rfl⟩
      rw [typeExamples_of_items otherIsArray becomes, if_pos rfl, one]
      rcases exists_resolved_of_inlinesTo inlined with
        ⟨seen, resolved, truthy⟩
      cases stays : new.isTruthy with
      | false =>
        refine ⟨_, _, rfl, rfl, by simp, ?_⟩
        intro condition
        have stated :=
          states condition describes _ seen held present resolved
        cases (truthy.symm.trans stays).symm.trans stated
      | true =>
        rw [other]
        refine ⟨_, _, rfl, rfl, by simp, ?_⟩
        intro condition
        cases same condition
        rfl

/-- The examples made up from the types of an object and of what it becomes. -/
theorem alongside_typeExamples
    (replaced : PartsAlongside alike definitions walk otherWalk entries others)
    (gives : ∀ node found, walk node = .ok found → found ≠ [])
    (otherGives : ∀ node found, otherWalk node = .ok found → found ≠ [])
    (wellFormed : WellFormed entries)
    (states : alike → StatesItems definitions entries) :
    Alongside alike (typeExamples walk entries)
      (typeExamples otherWalk others) := by
  have kind :
      Entries.get? (.str "type") others = Entries.get? (.str "type") entries :=
    replaced.get?_eq_of_notMem (by decide)
  by_cases isObject :
      Entries.get? (.str "type") entries = some (.str "object")
  · exact
      alongside_objectExamples replaced gives otherGives wellFormed.properties
        isObject (kind.trans isObject)
  · by_cases isArray :
        Entries.get? (.str "type") entries = some (.str "array")
    · exact
        alongside_arrayExamples replaced gives otherGives wellFormed.items
          states isArray (kind.trans isArray)
    · rcases exists_fallbackValue wellFormed.choices with ⟨value, made⟩
      rw [typeExamples_of_fallback isObject isArray,
        typeExamples_of_fallback (kind ▸ isObject) (kind ▸ isArray),
        fallbackValue_eq replaced, made]
      exact alongside_ok

/-- The examples of an object that states none. -/
theorem alongside_madeExamples
    (replaced : PartsAlongside alike definitions walk otherWalk entries others)
    (gives : ∀ node found, walk node = .ok found → found ≠ [])
    (otherGives : ∀ node found, otherWalk node = .ok found → found ≠ [])
    (wellFormed : WellFormed entries)
    (states : alike → StatesItems definitions entries) :
    Alongside alike
      (compositeExamples walk entries compositeMembers >>= fun found =>
        if found.isEmpty then typeExamples walk entries else pure found)
      (compositeExamples otherWalk others compositeMembers >>= fun found =>
        if found.isEmpty then typeExamples otherWalk others
        else pure found) := by
  rcases alongside_compositeExamples replaced (List.Subset.refl _) with
    ⟨found, founds, one, other, empty, same⟩
  rw [one, other]
  cases found with
  | nil =>
    cases empty.1 rfl
    exact alongside_typeExamples replaced gives otherGives wellFormed states
  | cons first more =>
    cases founds with
    | nil => cases empty.2 rfl
    | cons => exact ⟨_, _, rfl, rfl, by simp, same⟩

end Parts

end ApiAtlas.Schema
