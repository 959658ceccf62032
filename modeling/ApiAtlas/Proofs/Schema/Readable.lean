import ApiAtlas.Proofs.Data.Json
import ApiAtlas.Proofs.Fault
import ApiAtlas.Proofs.Filter.Path
import ApiAtlas.Proofs.Schema.Synthesis

/-!
# Schemas that can be read

A schema is replaced by one without references, examples are made up for it,
and the filter fields of a body are listed.  Each of the three goes over the
objects of the schema and takes some of their members as what they should be:
a reference as a text, the properties of an object as a map, the choices of a
text as a list.  Where they are, all three fail only as declared.
-/

namespace ApiAtlas.Schema

/-! ## Objects and schemas -/

/-- An object whose properties or choices have the kind that its type asks for. -/
@[mk_iff]
structure IsUsable (entries : Entries) : Prop where
  properties : Entries.get? (.str "type") entries = some (.str "object") →
    (entries.held "properties").isTruthy = true →
      (entries.held "properties").isMap = true
  choices : Entries.get? (.str "type") entries = some (.str "string") →
    (entries.held "enum").isTruthy = true →
      (entries.held "enum").list?.isSome = true ∨
        (entries.held "enum").text?.isSome = true

instance : DecidablePred IsUsable := fun entries =>
  decidable_of_iff' _ (isUsable_iff entries)

/--
A schema that can be read: its references are texts, it leads to an object,
and all objects in it are usable.
-/
structure IsReadable (definitions node : Datum) : Prop where
  refersByText : RefersByText definitions node
  leadsToObject : ∀ target, Resolves definitions node target →
    ∃ entries, target = .map entries
  usable : ∀ entries, Meets definitions node entries → IsUsable entries

/-- An object that gives texts as the names of its properties. -/
def HasTextNames (entries : Entries) : Prop :=
  ∀ named, Entries.get? (.str "properties") entries = some (.map named) →
    Entries.HasTextKeys named

/-! ## Properties of all objects of a schema -/

section EachMap

variable {holds : Entries → Prop} {definitions node target : Datum}
  {entries : Entries}

theorem eachMap_of_holding
    {member : String} {holding : Holding}
    (eachMap : Datum.EachMap holds (.map entries))
    (held : holding? entries member = some holding) :
    ∀ part ∈ holding.parts, part.EachMap holds := by
  have inside : (holding.refill holding.parts).EachMap holds :=
    eachMap.of_get? (get?_of_holding held)
  cases holding with
  | branches listed =>
    cases inside with
    | list each => exact each
  | properties named =>
    rw [Holding.refill_properties] at inside
    cases inside with
    | map _ each => exact List.forall_mem_map.2 each
  | items inner => exact List.forall_mem_singleton.2 inside

theorem eachMap_of_mem_parts
    {part : Datum} (eachMap : Datum.EachMap holds (.map entries))
    (isPart : part ∈ parts entries) : part.EachMap holds := by
  rw [parts, partsUnder, List.mem_flatMap] at isPart
  rcases isPart with ⟨member, -, within⟩
  cases held : holding? entries member with
  | none =>
    rw [held] at within
    cases within
  | some holding =>
    rw [held] at within
    exact eachMap_of_holding eachMap held part within

variable (inDefinitions : definitions.EachMap holds)
include inDefinitions

/-- What holds of all maps holds of what their references lead to. -/
theorem eachMap_of_resolves
    (eachMap : node.EachMap holds) (resolved : Resolves definitions node target) :
    target.EachMap holds := by
  induction resolved with
  | value => exact eachMap
  | follow _ found _ ih =>
    rcases resolve_eq_ok_iff.1 found with ⟨name, -, defined⟩
    exact ih (inDefinitions.of_held? defined)

/-- What holds of all maps holds of the objects that are met. -/
theorem eachMap_of_meets
    (eachMap : node.EachMap holds) (met : Meets definitions node entries) :
    Datum.EachMap holds (.map entries) := by
  induction met with
  | here resolved => exact eachMap_of_resolves inDefinitions eachMap resolved
  | inPart resolved isPart _ ih =>
    have above := eachMap_of_resolves inDefinitions eachMap resolved
    exact ih (eachMap_of_mem_parts above isPart)

theorem eachMap_of_walk
    {last : Datum} {place : List Nat} {names : List String}
    (eachMap : node.EachMap holds)
    (walk : Walk definitions node place names last) : last.EachMap holds := by
  induction walk with
  | here => exact eachMap
  | part _ found _ ih =>
    exact ih (eachMap_of_mem_parts eachMap (List.mem_of_getElem? found))
  | expand _ _ defined _ ih => exact ih (inDefinitions.of_held? defined)

end EachMap

/-! ## Schemas that are readable -/

/-- A schema that says nothing is readable. -/
theorem isReadable_empty (definitions : Datum) :
    IsReadable definitions (.map []) := by
  have noParts : parts [] = [] := by decide
  constructor
  · intro place names last walk reference isReference
    cases walk with
    | here => cases isReference
    | part _ found =>
      rw [noParts] at found
      cases found
    | expand isReference => cases isReference
  · intro target resolved
    cases resolved with
    | value => exact ⟨[], rfl⟩
    | follow isReference => cases isReference
  · intro entries met
    cases met with
    | here resolved =>
      cases resolved with
      | value => decide
      | follow isReference => cases isReference
    | inPart resolved isPart =>
      cases resolved with
      | value =>
        rw [noParts] at isPart
        cases isPart
      | follow isReference => cases isReference

/-- An object that is usable and refers by a text if it refers at all. -/
@[mk_iff]
structure IsSound (entries : Entries) : Prop where
  refersByText :
    (Entries.get? (.str referenceMember) entries).all
      (·.text?.isSome) = true
  usable : IsUsable entries

instance : DecidablePred IsSound := fun entries =>
  decidable_of_iff' _ (isSound_iff entries)

/-- Whether all maps of a value are sound. -/
def isSound (value : Datum) : Bool :=
  value.passes (fun _ => true) fun entries => decide (IsSound entries)

theorem eachMap_of_isSound
    {value : Datum} (sound : isSound value = true) : value.EachMap IsSound :=
  (Datum.eachMap_of_passes sound).mono fun _ => of_decide_eq_true

/-- References over objects lead from an object to an object. -/
theorem isMap_of_resolves
    {definitions : Entries} {node target : Datum}
    (objects : ∀ definition ∈ definitions, definition.2.isMap = true)
    (isMap : node.isMap = true)
    (resolved : Resolves (.map definitions) node target) :
    target.isMap = true := by
  induction resolved with
  | value => exact isMap
  | follow _ found _ ih =>
    rcases resolve_eq_ok_iff.1 found with ⟨name, -, defined⟩
    rcases Entries.exists_mem_of_get? (Except.ok.inj defined) with
      ⟨definition, present, rfl⟩
    exact ih (objects definition present)

/-- An object is readable over objects if all maps in them are sound. -/
theorem isReadable_of_isSound
    {definitions entries : Entries}
    (soundDefinitions : isSound (.map definitions) = true)
    (objects : ∀ definition ∈ definitions, definition.2.isMap = true)
    (sound : isSound (.map entries) = true) :
    IsReadable (.map definitions) (.map entries) := by
  have inDefinitions := eachMap_of_isSound soundDefinitions
  have eachMap := eachMap_of_isSound sound
  constructor
  · intro place names last walk reference isReference
    have here := eachMap_of_walk inDefinitions eachMap walk
    cases last with
    | map entries =>
      have isText := here.of_map.refersByText
      rw [show Entries.get? (.str referenceMember) entries = some reference
        from isReference] at isText
      cases reference with
      | scalar value =>
        cases value with
        | str text => exact ⟨text, rfl⟩
        | _ => cases isText
      | _ => cases isText
    | _ => cases isReference
  · intro target resolved
    exact Datum.exists_of_isMap (isMap_of_resolves objects rfl resolved)
  · intro entries met
    exact (eachMap_of_meets inDefinitions eachMap met).of_map.usable

/-! ## Schemas without references -/

/-- A node without references every object of which has a property. -/
inductive Throughout (holds : Entries → Prop) : Datum → Prop where
  | value {node : Datum} (noObject : ∀ entries, node ≠ .map entries) :
      Throughout holds node
  | object {entries : Entries}
      (noReference : reference? (.map entries) = none) (here : holds entries)
      (each : ∀ part ∈ parts entries, Throughout holds part) :
      Throughout holds (.map entries)

section Inlining

variable {holds : Entries → Prop} {definitions node result : Datum}
  {limit : Int} {budget : Nat} {chain : List String}
  {entries others : Entries}

/-- A property that objects keep when their parts are replaced. -/
def KeptByInlining (holds : Entries → Prop) : Prop :=
  ∀ becomes : Datum → Datum → Prop, ∀ entries others,
    Replaced becomes partMembers entries others → holds entries → holds others

/-- What inlining gives has a kept property if the objects of the schema have. -/
theorem throughout_of_inlineWithin
    (kept : KeptByInlining holds)
    (objects : ∀ entries, Meets definitions node entries → holds entries)
    (success : inlineWithin definitions limit budget chain node = .ok result) :
    Throughout holds result := by
  induction success using inlineWithin_induction with
  | follow isReference _ found _ _ ih =>
    refine ih fun entries met => ?_
    exact objects entries (met.of_reference isReference found)
  | object noReference _ replaced =>
    have itself : Resolves definitions (.map _) (.map _) := .value noReference
    refine
      .object ((replaced.agree.get?_eq_none_iff _).2 noReference)
        (kept _ _ _ replaced (objects _ (.here itself))) ?_
    intro part isPart
    rcases replaced.exists_of_mem_parts isPart with
      ⟨original, isOriginal, _, ih⟩
    refine ih fun inner met => ?_
    exact objects inner (.inPart itself isOriginal met)
  | value noObject => exact .value noObject

/-- The type of an object stays as it is. -/
theorem Replaced.type_eq
    {becomes : Datum → Datum → Prop}
    (replaced : Replaced becomes partMembers entries others) :
    Entries.get? (.str "type") others = Entries.get? (.str "type") entries :=
  replaced.get?_eq fun isMember => absurd isMember (by decide)

/-- Properties stay as they are, or are a map that has become another one. -/
theorem Replaced.properties_eq_or
    {becomes : Datum → Datum → Prop}
    (replaced : Replaced becomes partMembers entries others) :
    Entries.get? (.str "properties") others =
        Entries.get? (.str "properties") entries ∨
      ∃ named news : Entries,
        Entries.get? (.str "properties") entries = some (.map named) ∧
          Entries.get? (.str "properties") others = some (.map news) ∧
          news.map Prod.fst = named.map Prod.fst := by
  have holds := holding?_properties entries
  cases held : Entries.get? (.str "properties") entries with
  | none =>
    rw [held] at holds
    exact Or.inl ((replaced.get?_eq fun _ => holds).trans held)
  | some value =>
    rw [held] at holds
    cases value with
    | map named =>
      rcases replaced.held "properties" (by decide) _ holds with
        ⟨news, each, found⟩
      refine Or.inr ⟨named, _, rfl, found, ?_⟩
      have lengths : (named.map Prod.fst).length = news.length := by
        rw [← each.length_eq, Holding.parts, List.length_map,
          List.length_map]
      rw [zipWith_eq_zip]
      exact List.map_fst_zip (Nat.le_of_eq lengths)
    | _ => exact Or.inl ((replaced.get?_eq fun _ => holds).trans held)

theorem keptByInlining_isUsable : KeptByInlining IsUsable := by
  intro becomes entries others replaced usable
  have choices :
      Entries.held "enum" others = Entries.held "enum" entries := by
    rw [Entries.held, Entries.held,
      replaced.get?_eq fun isMember => absurd isMember (by decide)]
  constructor
  · rw [replaced.type_eq, Entries.held]
    intro isObject
    rcases replaced.properties_eq_or with same | ⟨named, news, -, found, -⟩
    · rw [same]
      exact usable.properties isObject
    · rw [found]
      exact fun _ => rfl
  · rw [replaced.type_eq, choices]
    exact usable.choices

theorem keptByInlining_hasTextNames : KeptByInlining HasTextNames := by
  intro becomes entries others replaced texts named found
  rcases replaced.properties_eq_or with
    same | ⟨original, news, given, made, keys⟩
  · exact texts named (same.symm.trans found)
  · cases made.symm.trans found
    rw [Entries.HasTextKeys, keys]
    exact texts original given

/-- Examples can be added if the object keeps the property. -/
theorem Throughout.putExamples
    {value : Datum} (throughout : Throughout holds (.map entries))
    (here : holds (Entries.put (.str "examples") value entries)) :
    Throughout holds (.map (Entries.put (.str "examples") value entries)) := by
  cases throughout with
  | value noObject => exact (noObject entries rfl).elim
  | object none _ each =>
    refine .object ((reference?_put (by decide) value).trans none) here ?_
    rw [parts_put (by decide) (by decide)]
    exact each

theorem HasTextNames.putExamples
    (names : HasTextNames entries) (value : Datum) :
    HasTextNames (Entries.put (.str "examples") value entries) := by
  intro named found
  rw [Entries.get?_put_of_ne (by decide)] at found
  exact names named found

/-- A schema whose references are texts is inlined or refused. -/
theorem failsAsDeclared_inline
    {definitions : Entries} (texts : RefersByText (.map definitions) node) :
    FailsAsDeclared (inline node (.map definitions) limit) := by
  intro fault failure
  refine Or.inl ?_
  rcases comesFirst_of_inlineWithin (isChain_nil _) texts failure with
    ⟨chain, rfl⟩ | ⟨place, ⟨names, last, -, -, broken⟩, -⟩
  · rfl
  · cases broken with
    | unresolved => rfl
    | repeated => rfl

end Inlining

/-! ## Examples -/

section Examples

variable {definitions node : Datum} {limit : Int} {budget : Nat}
  {chain : List String} {entries : Entries}
  {walk : Datum → Except Fault (List Datum)}

theorem failsAsDeclared_branchExamples
    {branches : List Datum}
    (each : ∀ branch ∈ branches, FailsAsDeclared (walk branch)) :
    FailsAsDeclared (branchExamples walk branches) := by
  induction branches with
  | nil => exact failsAsDeclared_ok _
  | cons branch rest ih =>
    rw [List.forall_mem_cons] at each
    have behind := ih each.2
    rw [branchExamples]
    cases here : walk branch with
    | ok found => exact behind.map _
    | error fault =>
      dsimp only
      split
      · exact behind
      · exact (each.1 fault here).failsAsDeclared

theorem failsAsDeclared_compositeExamples
    (each : ∀ part ∈ parts entries, FailsAsDeclared (walk part))
    {members : List String} (composite : members ⊆ compositeMembers) :
    FailsAsDeclared (compositeExamples walk entries members) := by
  induction members with
  | nil => exact failsAsDeclared_ok _
  | cons member rest ih =>
    rw [List.cons_subset] at composite
    have behind := ih composite.2
    rw [compositeExamples]
    split
    · next branches found =>
      have here : FailsAsDeclared (branchExamples walk branches) :=
        failsAsDeclared_branchExamples fun branch isBranch =>
          each branch (mem_parts_of_branch composite.1 found isBranch)
      refine here.bind ?_
      intro found _
      split
      · exact behind
      · exact failsAsDeclared_ok _
    · exact behind

theorem failsAsDeclared_exampleObject
    {object named : Entries}
    (each : ∀ part ∈ named.map Prod.snd, FailsAsDeclared (walk part)) :
    FailsAsDeclared (exampleObject walk object named) := by
  induction named generalizing object with
  | nil => exact failsAsDeclared_ok _
  | cons property rest ih =>
    rw [List.map_cons, List.forall_mem_cons] at each
    refine each.1.bind ?_
    intro found _
    split
    · exact ih each.2
    · exact ih each.2

theorem failsAsDeclared_fallbackValue (usable : IsUsable entries) :
    FailsAsDeclared (fallbackValue entries) := by
  unfold fallbackValue
  split
  · next isText =>
    split
    · next choices found =>
      split
      · next present =>
        have kind := usable.choices isText
        rw [Entries.held_of_get? found] at kind
        cases choices with
        | list listed =>
          cases listed with
          | nil => cases present
          | cons first rest => exact failsAsDeclared_ok _
        | scalar value =>
          cases value with
          | str text =>
            rw [firstPart]
            split
            · exact failsAsDeclared_ok _
            · next empty =>
              rw [String.toList_eq_nil_iff] at empty
              subst empty
              cases present
          | _ => rcases kind present with isList | isText <;> contradiction
        | _ => rcases kind present with isList | isText <;> contradiction
      · exact failsAsDeclared_ok _
    · exact failsAsDeclared_ok _
  · split <;> exact failsAsDeclared_ok _
  · split <;> exact failsAsDeclared_ok _
  · exact failsAsDeclared_ok _
  · exact failsAsDeclared_ok _

theorem failsAsDeclared_objectExamples
    (usable : IsUsable entries)
    (each : ∀ part ∈ parts entries, FailsAsDeclared (walk part))
    (isObject : Entries.get? (.str "type") entries = some (.str "object")) :
    FailsAsDeclared (typeExamples walk entries) := by
  simp only [typeExamples, isObject]
  split
  · next properties found =>
    split
    · exact failsAsDeclared_ok _
    · next present =>
      have kind := usable.properties isObject
      rw [Entries.held_of_get? found] at kind
      rw [Bool.not_eq_true, Bool.not_eq_false'] at present
      rcases Datum.exists_of_isMap (kind present) with ⟨named, rfl⟩
      have inside : FailsAsDeclared (exampleObject walk [] named) :=
        failsAsDeclared_exampleObject fun part isPart =>
          each part (mem_parts_of_property found isPart)
      exact inside.bind_pure _
  · exact failsAsDeclared_ok _

theorem failsAsDeclared_arrayExamples
    (each : ∀ part ∈ parts entries, FailsAsDeclared (walk part))
    (others : ∀ node, (∀ entries, node ≠ .map entries) →
      FailsAsDeclared (walk node))
    (gives : ∀ node found, walk node = .ok found → found ≠ [])
    (isArray : Entries.get? (.str "type") entries = some (.str "array")) :
    FailsAsDeclared (typeExamples walk entries) := by
  simp only [typeExamples, isArray]
  split
  · next items found =>
    split
    · exact failsAsDeclared_ok _
    · have inside : FailsAsDeclared (walk items) := by
        by_cases isObject : ∃ inner, items = .map inner
        · rcases isObject with ⟨inner, rfl⟩
          exact
            each _ (mem_parts_of_items (describesArray_of_type isArray) found)
        · rw [not_exists] at isObject
          exact others items isObject
      refine inside.bind ?_
      intro values given
      split
      · exact failsAsDeclared_ok _
      · exact (gives items [] given rfl).elim
  · exact failsAsDeclared_ok _

theorem failsAsDeclared_typeExamples
    (usable : IsUsable entries)
    (each : ∀ part ∈ parts entries, FailsAsDeclared (walk part))
    (others : ∀ node, (∀ entries, node ≠ .map entries) →
      FailsAsDeclared (walk node))
    (gives : ∀ node found, walk node = .ok found → found ≠ []) :
    FailsAsDeclared (typeExamples walk entries) := by
  by_cases isObject :
      Entries.get? (.str "type") entries = some (.str "object")
  · exact failsAsDeclared_objectExamples usable each isObject
  by_cases isArray : Entries.get? (.str "type") entries = some (.str "array")
  · exact failsAsDeclared_arrayExamples each others gives isArray
  rw [typeExamples_of_fallback isObject isArray]
  exact (failsAsDeclared_fallbackValue usable).map _

/-- A schema without references whose objects are usable has examples. -/
theorem failsAsDeclared_examplesWithin
    (throughout : Throughout IsUsable node) :
    FailsAsDeclared (examplesWithin definitions limit budget chain node) := by
  induction throughout generalizing budget chain with
  | value noObject =>
    cases budget with
    | zero => exact failsAsDeclared_of_isOwn rfl
    | succ budget =>
      exact failsAsDeclared_of_eq_ok (examplesWithin_of_no_map noObject)
  | @object entries noReference usable _ ih =>
    cases budget with
    | zero => exact failsAsDeclared_of_isOwn rfl
    | succ budget =>
      cases states : statedExamples? entries with
      | some stated =>
        exact
          failsAsDeclared_of_eq_ok (examplesWithin_of_stated noReference states)
      | none =>
        rw [examplesWithin_of_unstated noReference states]
        have composite :
            FailsAsDeclared
              (compositeExamples
                (examplesWithin definitions limit budget chain) entries
                compositeMembers) :=
          failsAsDeclared_compositeExamples (fun part isPart => ih part isPart)
            (List.Subset.refl _)
        refine composite.bind ?_
        intro found _
        split
        · apply failsAsDeclared_typeExamples usable
          · intro part isPart
            exact ih part isPart
          · intro node noObject
            cases budget with
            | zero => exact failsAsDeclared_of_isOwn rfl
            | succ budget =>
              exact failsAsDeclared_of_eq_ok (examplesWithin_of_no_map noObject)
          · intro node found made
            exact examplesWithin_ne_nil made
        · exact failsAsDeclared_ok _

/-- A readable schema is inlined and given examples, or refused. -/
theorem failsAsDeclared_inlineWithExamples
    {definitions : Entries} {stated : Datum}
    (readable : IsReadable (.map definitions) node) :
    FailsAsDeclared (inlineWithExamples node (.map definitions) stated) := by
  refine (failsAsDeclared_inline readable.refersByText).bind ?_
  intro schema success
  have throughout : Throughout IsUsable schema :=
    throughout_of_inlineWithin keptByInlining_isUsable readable.usable success
  have isObject : ∃ inlined, schema = .map inlined := by
    rcases exists_matches_of_inlinesTo ⟨_, _, _, success⟩ with
      ⟨seen, resolved, matching⟩
    rcases readable.leadsToObject seen resolved with ⟨entries, rfl⟩
    cases matching with
    | value noObject => exact (noObject entries rfl).elim
    | object => exact ⟨_, rfl⟩
  rcases isObject with ⟨inlined, rfl⟩
  dsimp only
  split
  · exact (failsAsDeclared_examplesWithin throughout).bind_pure _
  · exact failsAsDeclared_ok _

end Examples

end ApiAtlas.Schema
