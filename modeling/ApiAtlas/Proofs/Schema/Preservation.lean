import ApiAtlas.Proofs.Schema.Reference
import Mathlib.Data.List.Induction

/-!
# Inlining preserves schemas

A sequence of steps leads from a schema to a part of it: to a branch, to a
property, to the items of an array, and so on.  In a schema with references
each value on the way is seen as what its references lead to.

The schema that inlining gives is the same tree: it has the same places, at
each of which stands the same value, or an object that differs in the values
under the members with its parts only.  None of its places holds a reference.
-/

namespace ApiAtlas.Schema

/-! ## Places in schemas -/

/-- A step from an object to a part of it. -/
inductive Step where
  /-- To the branch at a position under a composite member. -/
  | branch (member : String) (index : Nat)
  | property (name : Scalar)
  /-- To the items of an array. -/
  | items
deriving DecidableEq, Repr

/-- The value that a step leads to within an object. -/
def Step.under? : Step → Entries → Option Datum
  | .branch member index, entries =>
    if member ∈ compositeMembers then
      ((Entries.get? (.str member) entries).bind Datum.list?).bind (·[index]?)
    else none
  | .property name, entries =>
    match Entries.get? (.str "properties") entries with
    | some (.map properties) => Entries.get? name properties
    | _ => none
  | .items, entries =>
    if describesArray entries then Entries.get? (.str "items") entries
    else none

/-- Whether a value may stand where a step leads to: items are an object. -/
def Step.Accepts : Step → Datum → Prop
  | .items, node => ∃ entries, node = .map entries
  | _, _ => True

/--
The values that steps lead to from a root, where a value that is met may be
seen as another one.
-/
inductive Reaches (sees : Datum → Datum → Prop) (root : Datum) :
    List Step → Datum → Prop where
  | root {node : Datum} (seen : sees root node) : Reaches sees root [] node
  | step {steps : List Step} {step : Step} {entries : Entries}
      {part node : Datum} (before : Reaches sees root steps (.map entries))
      (under : step.under? entries = some part) (seen : sees part node)
      (accepted : step.Accepts node) :
      Reaches sees root (steps ++ [step]) node

/-- What a value is when its references are followed until none is left. -/
inductive Resolves (definitions : Datum) : Datum → Datum → Prop where
  | value {node : Datum} (noReference : reference? node = none) :
      Resolves definitions node node
  | follow {node target last : Datum} {text : String}
      (isReference : reference? node = some (.str text))
      (found : resolve text definitions = .ok target)
      (rest : Resolves definitions target last) :
      Resolves definitions node last

/-- Equal values, or objects that differ at most where they hold parts. -/
inductive AlikeButParts : Datum → Datum → Prop where
  | value {node : Datum} (noObject : ∀ entries, node ≠ .map entries) :
      AlikeButParts node node
  | object {entries others : Entries}
      (agree :
        Entries.AgreeExcept (HoldsParts entries partMembers) entries others) :
      AlikeButParts (.map entries) (.map others)

section Reaches

variable {sees : Datum → Datum → Prop} {root node other : Datum}
  {steps : List Step} {step : Step}

theorem reaches_nil_iff : Reaches sees root [] node ↔ sees root node := by
  constructor
  · generalize allEq : ([] : List Step) = all
    intro reached
    cases reached with
    | root seen => exact seen
    | step => simp at allEq
  · exact .root

theorem reaches_append_iff :
    Reaches sees root (steps ++ [step]) node ↔
      ∃ entries part, Reaches sees root steps (.map entries) ∧
        step.under? entries = some part ∧ sees part node ∧
        step.Accepts node := by
  constructor
  · generalize allEq : steps ++ [step] = all
    intro reached
    cases reached with
    | root => simp at allEq
    | @step front last entries part _ before under seen accepted =>
      rcases List.append_inj' allEq rfl with ⟨rfl, lastEq⟩
      cases lastEq
      exact ⟨entries, part, before, under, seen, accepted⟩
  · rintro ⟨entries, part, before, under, seen, accepted⟩
    exact .step before under seen accepted

/-- Steps lead to one value if every value is seen as one. -/
theorem Reaches.unique
    (seesOne : ∀ value one another,
      sees value one → sees value another → one = another)
    (reached : Reaches sees root steps node)
    (also : Reaches sees root steps other) : node = other := by
  induction reached generalizing other with
  | root seen => exact seesOne _ _ _ seen (reaches_nil_iff.1 also)
  | step _ under seen _ ih =>
    rcases reaches_append_iff.1 also with
      ⟨entries, part, before, alsoUnder, alsoSeen, -⟩
    cases ih before
    cases under.symm.trans alsoUnder
    exact seesOne _ _ _ seen alsoSeen

end Reaches

/-- A value is resolved in one way. -/
theorem Resolves.unique
    {definitions node one another : Datum}
    (resolved : Resolves definitions node one)
    (also : Resolves definitions node another) : one = another := by
  induction resolved with
  | value noReference =>
    cases also with
    | value => rfl
    | follow isReference => cases noReference.symm.trans isReference
  | follow isReference found _ ih =>
    cases also with
    | value noReference => cases noReference.symm.trans isReference
    | follow alsoReference alsoFound rest =>
      cases isReference.symm.trans alsoReference
      cases found.symm.trans alsoFound
      exact ih rest

/-! ## What inlining makes of a value -/

/-- Values of which inlining makes the other, at some place of a walk. -/
def InlinesTo (definitions node result : Datum) : Prop :=
  ∃ limit budget chain,
    inlineWithin definitions limit budget chain node = .ok result

/-- A value seen through its references, and what inlining makes of it. -/
inductive Matches (definitions : Datum) : Datum → Datum → Prop where
  | value {node : Datum} (noObject : ∀ entries, node ≠ .map entries) :
      Matches definitions node node
  | object {entries others : Entries}
      (noReference : reference? (.map entries) = none)
      (replaced :
        Replaced (InlinesTo definitions) partMembers entries others) :
      Matches definitions (.map entries) (.map others)

section Inlining

variable {definitions node result : Datum} {entries others : Entries}

theorem inlinesTo_of_no_map (noObject : ∀ entries, node ≠ .map entries) :
    InlinesTo definitions node node :=
  ⟨0, 1, [], inlineWithin_of_no_map noObject⟩

/-- Inlining follows the references of a value and replaces its parts. -/
theorem exists_matches_of_inlinesTo
    (inlined : InlinesTo definitions node result) :
    ∃ seen, Resolves definitions node seen ∧
      Matches definitions seen result := by
  rcases inlined with ⟨limit, budget, chain, success⟩
  induction success using inlineWithin_induction with
  | follow isReference _ found _ _ ih =>
    rcases ih with ⟨seen, resolved, matching⟩
    exact ⟨seen, .follow isReference found resolved, matching⟩
  | object noReference _ replaced =>
    refine ⟨_, .value noReference, .object noReference ?_⟩
    exact replaced.imp fun _ _ ⟨done, _⟩ => ⟨_, _, _, done⟩
  | value noObject =>
    refine ⟨_, .value ?_, .value noObject⟩
    exact reference?_eq_none_of_no_map noObject

/-! ## Steps in an object and in what it becomes -/

theorem rel_getElem?
    {becomes : Datum → Datum → Prop} {items news : List Datum}
    (each : List.Forall₂ becomes items news) (index : Nat) :
    Option.Rel becomes items[index]? news[index]? := by
  induction each generalizing index with
  | nil => exact .none
  | cons here _ ih =>
    cases index with
    | zero => exact .some here
    | succ index => exact ih index

theorem rel_get?_zipWith
    {becomes : Datum → Datum → Prop} {named : Entries} {news : List Datum}
    (each : List.Forall₂ becomes (named.map Prod.snd) news) (name : Scalar) :
    Option.Rel becomes (Entries.get? name named)
      (Entries.get? name
        (named.zipWith (fun entry part => (entry.1, part)) news)) := by
  induction named generalizing news with
  | nil => exact .none
  | cons entry rest ih =>
    rw [List.map_cons, List.forall₂_cons_left_iff] at each
    rcases each with ⟨new, behind, here, below, rfl⟩
    rw [List.zipWith_cons_cons, Entries.get?_cons, Entries.get?_cons]
    dsimp only
    split
    · exact .some here
    · exact ih below

/-- A member that holds no parts keeps its value. -/
theorem Replaced.get?_eq
    {becomes : Datum → Datum → Prop} {members : List String}
    (replaced : Replaced becomes members entries others) {text : String}
    (holdsNone : text ∈ members → holding? entries text = none) :
    Entries.get? (.str text) others = Entries.get? (.str text) entries := by
  refine replaced.agree.get?_eq ?_
  rintro ⟨member, isMember, same, holds⟩
  cases same
  exact holds (holdsNone isMember)

theorem rel_under?_branch
    (replaced : Replaced (InlinesTo definitions) partMembers entries others)
    (member : String) (index : Nat) :
    Option.Rel (InlinesTo definitions)
      ((Step.branch member index).under? entries)
      ((Step.branch member index).under? others) := by
  simp only [Step.under?]
  by_cases isComposite : member ∈ compositeMembers
  · rw [if_pos isComposite, if_pos isComposite]
    have holds := holding?_of_composite entries isComposite
    have isMember : member ∈ partMembers := List.mem_append_left _ isComposite
    cases found : Entries.get? (.str member) entries with
    | none =>
      rw [found] at holds
      rw [replaced.get?_eq fun _ => holds, found]
      exact .none
    | some value =>
      rw [found] at holds
      cases value with
      | list items =>
        rcases replaced.held member isMember _ holds with
          ⟨news, each, becomes⟩
        rw [becomes]
        exact rel_getElem? each index
      | _ =>
        rw [replaced.get?_eq fun _ => holds, found]
        exact .none
  · rw [if_neg isComposite, if_neg isComposite]
    exact .none

theorem rel_under?_property
    (replaced : Replaced (InlinesTo definitions) partMembers entries others)
    (name : Scalar) :
    Option.Rel (InlinesTo definitions) ((Step.property name).under? entries)
      ((Step.property name).under? others) := by
  simp only [Step.under?]
  have holds := holding?_properties entries
  have isMember : "properties" ∈ partMembers := by decide
  cases found : Entries.get? (.str "properties") entries with
  | none =>
    rw [found] at holds
    rw [replaced.get?_eq fun _ => holds, found]
    exact .none
  | some value =>
    rw [found] at holds
    cases value with
    | map named =>
      rcases replaced.held _ isMember _ holds with ⟨news, each, becomes⟩
      rw [becomes]
      exact rel_get?_zipWith each name
    | _ =>
      rw [replaced.get?_eq fun _ => holds, found]
      exact .none

theorem rel_under?_items
    (replaced : Replaced (InlinesTo definitions) partMembers entries others) :
    Option.Rel (InlinesTo definitions) (Step.items.under? entries)
      (Step.items.under? others) := by
  have kind : describesArray others = describesArray entries := by
    rw [describesArray, describesArray,
      replaced.get?_eq fun isMember => absurd isMember (by decide)]
  simp only [Step.under?, kind]
  have holds := holding?_items entries
  have isMember : "items" ∈ partMembers := by decide
  cases isArray : describesArray entries with
  | false => exact .none
  | true =>
    rw [if_pos rfl, if_pos rfl]
    rw [isArray] at holds
    cases found : Entries.get? (.str "items") entries with
    | none =>
      rw [found] at holds
      rw [replaced.get?_eq fun _ => holds, found]
      exact .none
    | some value =>
      rw [found] at holds
      by_cases isObject : ∃ inner, value = .map inner
      · rcases isObject with ⟨inner, rfl⟩
        rcases replaced.held _ isMember _ holds with ⟨news, each, becomes⟩
        rw [becomes]
        cases each with
        | cons here below =>
          cases below
          exact .some here
      · rw [not_exists] at isObject
        have holdsNone : holding? entries "items" = none := by
          rw [holds]
          cases value with
          | map inner => exact (isObject inner rfl).elim
          | _ => rfl
        rw [replaced.get?_eq fun _ => holdsNone, found]
        exact .some (inlinesTo_of_no_map isObject)

/-- The same step leads to a part and to what the part becomes. -/
theorem rel_under?
    (replaced : Replaced (InlinesTo definitions) partMembers entries others)
    (step : Step) :
    Option.Rel (InlinesTo definitions) (step.under? entries)
      (step.under? others) := by
  cases step with
  | branch member index => exact rel_under?_branch replaced member index
  | property name => exact rel_under?_property replaced name
  | items => exact rel_under?_items replaced

/-! ## Places in a schema and in what it becomes -/

theorem Matches.accepts_iff
    {seen reached : Datum} (matching : Matches definitions seen reached)
    (step : Step) : step.Accepts reached ↔ step.Accepts seen := by
  cases matching with
  | value => exact Iff.rfl
  | object => cases step <;> simp [Step.Accepts]

/-- Whatever steps reach in the result they reach in the original. -/
theorem exists_original_of_reaches
    (inlined : InlinesTo definitions node result) {steps : List Step}
    {reached : Datum} (reaches : Reaches Eq result steps reached) :
    ∃ original, Reaches (Resolves definitions) node steps original ∧
      Matches definitions original reached := by
  induction reaches with
  | root seen =>
    cases seen
    rcases exists_matches_of_inlinesTo inlined with
      ⟨original, resolved, matching⟩
    exact ⟨original, .root resolved, matching⟩
  | @step steps step others new _ _ under seen accepted ih =>
    cases seen
    rcases ih with ⟨holder, before, matching⟩
    cases matching with
    | value noObject => exact (noObject others rfl).elim
    | @object entries _ _ replaced =>
      have related := rel_under? replaced step
      rw [under] at related
      generalize underEq : step.under? entries = there at related
      cases related with
      | some becomes =>
        rcases exists_matches_of_inlinesTo becomes with
          ⟨original, resolved, matching⟩
        have acceptedHere := (matching.accepts_iff step).1 accepted
        exact ⟨original, .step before underEq resolved acceptedHere, matching⟩

/-- Whatever steps reach in the original they reach in the result. -/
theorem exists_reached_of_reaches
    (inlined : InlinesTo definitions node result) {steps : List Step}
    {original : Datum}
    (reaches : Reaches (Resolves definitions) node steps original) :
    ∃ reached, Reaches Eq result steps reached ∧
      Matches definitions original reached := by
  induction reaches with
  | root resolved =>
    rcases exists_matches_of_inlinesTo inlined with ⟨seen, also, matching⟩
    cases resolved.unique also
    exact ⟨result, .root rfl, matching⟩
  | @step steps step entries part _ _ under resolved accepted ih =>
    rcases ih with ⟨holder, before, matching⟩
    cases matching with
    | value noObject => exact (noObject entries rfl).elim
    | @object _ others _ replaced =>
      have related := rel_under? replaced step
      rw [under] at related
      generalize underEq : step.under? others = there at related
      cases related with
      | @some _ new becomes =>
        rcases exists_matches_of_inlinesTo becomes with ⟨seen, also, matching⟩
        cases resolved.unique also
        have acceptedThere := (matching.accepts_iff step).2 accepted
        exact ⟨new, .step before underEq rfl acceptedThere, matching⟩

theorem Matches.alikeButParts
    {original reached : Datum}
    (matching : Matches definitions original reached) :
    AlikeButParts original reached := by
  cases matching with
  | value noObject => exact .value noObject
  | object _ replaced => exact .object replaced.agree

theorem Matches.reference?_eq_none
    {original reached : Datum}
    (matching : Matches definitions original reached) :
    reference? reached = none := by
  cases matching with
  | value noObject => exact reference?_eq_none_of_no_map noObject
  | object noReference replaced =>
    exact (replaced.agree.get?_eq_none_iff _).2 noReference

end Inlining

/--
Inlining keeps the places of a schema.  Steps lead somewhere in the result if
and only if they lead somewhere in the original when its references are
followed.  The two values are then equal or objects that differ where they
hold parts only, and the value in the result is no reference.
-/
theorem inline_reaches
    {node definitions result : Datum} {limit : Int}
    (success : inline node definitions limit = .ok result)
    (steps : List Step) :
    ((∃ reached, Reaches Eq result steps reached) ↔
        ∃ original, Reaches (Resolves definitions) node steps original) ∧
      ∀ reached original,
        Reaches Eq result steps reached →
          Reaches (Resolves definitions) node steps original →
            AlikeButParts original reached ∧ reference? reached = none := by
  have inlined : InlinesTo definitions node result :=
    ⟨limit, walkBudget limit, [], success⟩
  refine ⟨⟨?_, ?_⟩, ?_⟩
  · rintro ⟨reached, reaches⟩
    rcases exists_original_of_reaches inlined reaches with ⟨original, also, -⟩
    exact ⟨original, also⟩
  · rintro ⟨original, reaches⟩
    rcases exists_reached_of_reaches inlined reaches with ⟨reached, also, -⟩
    exact ⟨reached, also⟩
  · intro reached original reaches also
    rcases exists_original_of_reaches inlined reaches with
      ⟨matched, matchedReaches, matching⟩
    have sameEq : original = matched :=
      also.unique (fun _ _ _ one another => one.unique another) matchedReaches
    subst sameEq
    exact ⟨matching.alikeButParts, matching.reference?_eq_none⟩

/-! ## An array whose items are named twice -/

/-- The definition of a text, and another name for it. -/
def textAndAlias : Datum :=
  .object
    [("Text", .object [("type", .str "string")]), ("Alias", referring "Text")]

/-- The array of what a value describes, with branches that are no list. -/
def arrayOf (items : Datum) : Datum :=
  .object
    [("type", .str "array"), ("items", items), ("oneOf", .str "none")]

/-- Items that are named by another name are the same in the result. -/
theorem inline_reaches_items_by_alias :
    inline (arrayOf (referring "Alias")) textAndAlias depthLimit =
        .ok (arrayOf (.object [("type", .str "string")])) ∧
      ∃ original,
        Reaches (Resolves textAndAlias) (arrayOf (referring "Alias")) [.items]
            original ∧
          AlikeButParts original (.object [("type", .str "string")]) := by
  have success :
      inline (arrayOf (referring "Alias")) textAndAlias depthLimit =
        .ok (arrayOf (.object [("type", .str "string")])) := by
    decide +kernel
  have start :
      Reaches Eq (arrayOf (.object [("type", .str "string")])) []
        (arrayOf (.object [("type", .str "string")])) :=
    .root rfl
  have reaches :
      Reaches Eq (arrayOf (.object [("type", .str "string")])) [.items]
        (.object [("type", .str "string")]) :=
    start.step rfl rfl ⟨_, rfl⟩
  have places := inline_reaches success [.items]
  rcases places.1.1 ⟨_, reaches⟩ with ⟨original, also⟩
  exact ⟨success, original, also, (places.2 _ _ reaches also).1⟩

end ApiAtlas.Schema
