import ApiAtlas.Proofs.Data.Entries
import ApiAtlas.Proofs.Outcome
import ApiAtlas.Schema.Inline

/-!
# The parts of an object schema

An object holds parts under five members: the branches of three composites,
the properties, and the items of an array.  Replacing the parts goes through
the members in this order; it fails with the first part that cannot be
replaced, and otherwise touches nothing but the values under these members.
-/

namespace ApiAtlas.Schema

/-- The members that can hold parts, in walking order. -/
def partMembers : List String := compositeMembers ++ ["properties", "items"]

/-- How a member of an object holds parts. -/
inductive Holding where
  | branches (listed : List Datum)
  | properties (named : Entries)
  /-- The items of an array, which are one object. -/
  | items (inner : Entries)

namespace Holding

/-- The parts that are held, in order. -/
def parts : Holding → List Datum
  | .branches listed => listed
  | .properties named => named.map Prod.snd
  | .items inner => [.map inner]

/-- The value that holds other parts in the places of its own. -/
def refill : Holding → List Datum → Datum
  | .branches _, others => .list others
  | .properties named, others =>
    .map (named.zipWith (fun entry part => (entry.1, part)) others)
  | .items inner, others => others.headD (.map inner)

end Holding

/-- What a member of an object holds, if it holds parts. -/
def holding? (entries : Entries) (member : String) : Option Holding :=
  if member ∈ compositeMembers then
    match Entries.get? (.str member) entries with
    | some (.list listed) => some (.branches listed)
    | _ => none
  else if member = "properties" then
    match Entries.get? (.str "properties") entries with
    | some (.map named) => some (.properties named)
    | _ => none
  else if member = "items" then
    match describesArray entries, Entries.get? (.str "items") entries with
    | true, some (.map inner) => some (.items inner)
    | _, _ => none
  else none

theorem holding?_of_composite
    (entries : Entries) {member : String}
    (isComposite : member ∈ compositeMembers) :
    holding? entries member =
      match Entries.get? (.str member) entries with
      | some (.list listed) => some (.branches listed)
      | _ => none :=
  if_pos isComposite

theorem holding?_properties (entries : Entries) :
    holding? entries "properties" =
      match Entries.get? (.str "properties") entries with
      | some (.map named) => some (.properties named)
      | _ => none :=
  rfl

theorem holding?_items (entries : Entries) :
    holding? entries "items" =
      match describesArray entries, Entries.get? (.str "items") entries with
      | true, some (.map inner) => some (.items inner)
      | _, _ => none :=
  rfl

/-- The parts that an object holds under some members, in order. -/
def partsUnder (entries : Entries) (members : List String) : List Datum :=
  members.flatMap fun member =>
    (holding? entries member).elim [] Holding.parts

/-- The parts of an object, in walking order. -/
def parts (entries : Entries) : List Datum := partsUnder entries partMembers

/-- What a member of an object holds are parts of the object. -/
theorem mem_parts_of_holding
    {entries : Entries} {member : String} (isMember : member ∈ partMembers)
    {holding : Holding} (holds : holding? entries member = some holding)
    {part : Datum} (isPart : part ∈ holding.parts) : part ∈ parts entries := by
  rw [parts, partsUnder, List.mem_flatMap]
  refine ⟨member, isMember, ?_⟩
  rw [holds]
  exact isPart

theorem mem_parts_of_branch
    {entries : Entries} {member : String}
    (isComposite : member ∈ compositeMembers) {listed : List Datum}
    (held : Entries.get? (.str member) entries = some (.list listed))
    {part : Datum} (isPart : part ∈ listed) : part ∈ parts entries := by
  have holds : holding? entries member = some (.branches listed) := by
    rw [holding?_of_composite entries isComposite, held]
  exact mem_parts_of_holding (List.mem_append_left _ isComposite) holds isPart

theorem mem_parts_of_property
    {entries named : Entries}
    (held : Entries.get? (.str "properties") entries = some (.map named))
    {part : Datum} (isPart : part ∈ named.map Prod.snd) :
    part ∈ parts entries := by
  have holds : holding? entries "properties" = some (.properties named) := by
    rw [holding?_properties, held]
  exact mem_parts_of_holding (by decide) holds isPart

theorem describesArray_of_type
    {entries : Entries}
    (isArray : Entries.get? (.str "type") entries = some (.str "array")) :
    describesArray entries = true := by
  rw [describesArray, isArray]
  rfl

theorem mem_parts_of_items
    {entries inner : Entries} (isArray : describesArray entries = true)
    (held : Entries.get? (.str "items") entries = some (.map inner)) :
    .map inner ∈ parts entries := by
  have holds : holding? entries "items" = some (.items inner) := by
    rw [holding?_items, isArray, held]
  exact mem_parts_of_holding (by decide) holds (List.mem_singleton_self _)

/-- Whether an object holds parts under a key. -/
def HoldsParts (entries : Entries) (members : List String) (key : Scalar) :
    Prop :=
  ∃ member ∈ members, key = .str member ∧ holding? entries member ≠ none

/-! ## One member at a time -/

variable {replace other : Datum → Except Fault Datum} {entries others : Entries}
  {members : List String}

/-- An object with the parts under one member replaced. -/
def replaceUnder (replace : Datum → Except Fault Datum) (entries : Entries)
    (member : String) : Except Fault Entries :=
  match holding? entries member with
  | some holding => do
    let replaced ← holding.parts.mapM replace
    return Entries.put (.str member) (holding.refill replaced) entries
  | none => .ok entries

theorem replaceBranches_eq
    {member : String} (isComposite : member ∈ compositeMembers) :
    replaceBranches replace entries member =
      replaceUnder replace entries member := by
  rw [replaceBranches, replaceUnder, holding?_of_composite entries isComposite]
  cases Entries.get? (.str member) entries with
  | none => rfl
  | some value => cases value <;> rfl

theorem replaceValues_eq (replace : Datum → Except Fault Datum)
    (entries : Entries) :
    replaceValues replace entries = (do
      let replaced ← (entries.map Prod.snd).mapM replace
      return entries.zipWith (fun entry part => (entry.1, part)) replaced) := by
  rw [replaceValues]
  induction entries with
  | nil => rfl
  | cons entry rest ih =>
    rw [List.mapM_cons, List.map_cons, List.mapM_cons, ih]
    cases replace entry.2 with
    | error fault => rfl
    | ok value => cases (rest.map Prod.snd).mapM replace <;> rfl

theorem replaceProperties_eq :
    replaceProperties replace entries =
      replaceUnder replace entries "properties" := by
  rw [replaceProperties, replaceUnder, holding?_properties]
  cases Entries.get? (.str "properties") entries with
  | none => rfl
  | some value =>
    cases value with
    | map properties =>
      simp only [replaceValues_eq, Holding.parts]
      cases (properties.map Prod.snd).mapM replace <;> rfl
    | _ => rfl

theorem replaceItems_eq :
    replaceItems replace entries = replaceUnder replace entries "items" := by
  rw [replaceItems, replaceUnder, holding?_items]
  cases describesArray entries with
  | false => rfl
  | true =>
    cases Entries.get? (.str "items") entries with
    | none => rfl
    | some value =>
      cases value with
      | map items =>
        simp only [Holding.parts, List.mapM_cons, List.mapM_nil]
        cases replace (.map items) <;> rfl
      | _ => rfl

/-- The parts are replaced member by member. -/
theorem replaceParts_eq (replace : Datum → Except Fault Datum)
    (entries : Entries) :
    replaceParts replace entries =
      (partMembers.foldlM (replaceUnder replace) entries).map Datum.map := by
  have composites (start : Entries) :
      compositeMembers.foldlM (replaceBranches replace) start =
        compositeMembers.foldlM (replaceUnder replace) start := by
    simp only [compositeMembers, List.foldlM_cons, List.foldlM_nil]
    rw [replaceBranches_eq (by decide)]
    refine bind_congr fun second => ?_
    rw [replaceBranches_eq (by decide)]
    refine bind_congr fun third => ?_
    rw [replaceBranches_eq (by decide)]
  rw [replaceParts, composites, partMembers, List.foldlM_append]
  cases compositeMembers.foldlM (replaceUnder replace) entries with
  | error fault => rfl
  | ok branched =>
    simp only [bind, Except.bind, List.foldlM_cons, List.foldlM_nil,
      replaceProperties_eq, replaceItems_eq]
    cases replaceUnder replace branched "properties" with
    | error fault => rfl
    | ok described =>
      dsimp only
      cases replaceUnder replace described "items" <;> rfl

/-! ## Members do not interfere -/

/-- What a member holds depends on its value and on the type of the object. -/
theorem holding?_congr
    {member : String}
    (here :
      Entries.get? (.str member) others = Entries.get? (.str member) entries)
    (kind :
      Entries.get? (.str "type") others = Entries.get? (.str "type") entries) :
    holding? others member = holding? entries member := by
  have array : describesArray others = describesArray entries := by
    rw [describesArray, describesArray, kind]
  rw [holding?, holding?, here, array]
  split
  · rfl
  · split
    · next isProperties => rw [← isProperties, here]
    · split
      · next isItems => rw [← isItems, here]
      · rfl

/-- What a member holds is not changed by a value under another one. -/
theorem holding?_put
    {member put : String} (noKind : put ≠ "type") (different : member ≠ put)
    (value : Datum) :
    holding? (Entries.put (.str put) value entries) member =
      holding? entries member := by
  apply holding?_congr
  · rw [Entries.get?_put_of_ne different]
  · rw [Entries.get?_put_of_ne noKind.symm]

/-- What an object holds is what it holds under a member that is present. -/
theorem get?_ne_none_of_holding
    {member : String} (held : holding? entries member ≠ none) :
    Entries.get? (.str member) entries ≠ none := by
  intro absent
  apply held
  rw [holding?, absent]
  split
  · rfl
  · split
    · next isProperties => rw [← isProperties, absent]
    · split
      · next isItems =>
        rw [← isItems, absent]
        cases describesArray entries <;> rfl
      · rfl

/-- The members under which parts are replaced: different and not the type. -/
structure IndependentMembers (members : List String) : Prop where
  nodup : members.Nodup
  noKind : "type" ∉ members

theorem partMembers_independent : IndependentMembers partMembers :=
  ⟨by decide, by decide⟩

theorem IndependentMembers.tail
    {member : String} (independent : IndependentMembers (member :: members)) :
    IndependentMembers members :=
  ⟨independent.nodup.of_cons,
    fun isKind => independent.noKind (List.mem_cons_of_mem _ isKind)⟩

theorem IndependentMembers.holding?_put
    {member : String} (independent : IndependentMembers (member :: members))
    {behind : String} (isBehind : behind ∈ members) (value : Datum) :
    holding? (Entries.put (.str member) value entries) behind =
      holding? entries behind := by
  have noKind : member ≠ "type" := by
    rintro rfl
    exact independent.noKind List.mem_cons_self
  have different : behind ≠ member := by
    rintro rfl
    exact (List.nodup_cons.1 independent.nodup).1 isBehind
  exact Schema.holding?_put noKind different value

theorem partsUnder_put
    {member : String} (independent : IndependentMembers (member :: members))
    (value : Datum) :
    partsUnder (Entries.put (.str member) value entries) members =
      partsUnder entries members := by
  rw [partsUnder, partsUnder, List.flatMap_congr]
  intro behind isBehind
  rw [independent.holding?_put isBehind]

/-! ## Failure -/

theorem foldlM_replaceUnder_eq_error_iff
    (independent : IndependentMembers members) {fault : Fault} :
    members.foldlM (replaceUnder replace) entries = .error fault ↔
      (partsUnder entries members).mapM replace = .error fault := by
  induction members generalizing entries with
  | nil => simp [partsUnder, pure, Except.pure]
  | cons member rest ih =>
    have cut :
        partsUnder entries (member :: rest) =
          (holding? entries member).elim [] Holding.parts ++
            partsUnder entries rest :=
      List.flatMap_cons
    rw [List.foldlM_cons, replaceUnder, cut, List.mapM_append]
    cases holding? entries member with
    | none =>
      simp only [Option.elim_none, List.mapM_nil, pure_bind]
      refine (ih independent.tail).trans ?_
      cases (partsUnder entries rest).mapM replace <;>
        simp [bind, Except.bind, pure, Except.pure]
    | some holding =>
      simp only [Option.elim_some]
      cases holding.parts.mapM replace with
      | error cause => simp [bind, Except.bind]
      | ok replaced =>
        refine (ih independent.tail).trans ?_
        rw [partsUnder_put independent]
        cases (partsUnder entries rest).mapM replace <;>
          simp [bind, Except.bind, pure, Except.pure]

/-- Replacing fails with the first part that cannot be replaced. -/
theorem replaceParts_eq_error_iff {fault : Fault} :
    replaceParts replace entries = .error fault ↔
      ∃ (index : Nat) (part : Datum), (parts entries)[index]? = some part ∧
        replace part = .error fault ∧
        ∀ earlier < index, ∀ before, (parts entries)[earlier]? = some before →
          ∃ replaced, replace before = .ok replaced := by
  have fails :
      replaceParts replace entries = .error fault ↔
        partMembers.foldlM (replaceUnder replace) entries = .error fault := by
    rw [replaceParts_eq]
    cases partMembers.foldlM (replaceUnder replace) entries <;>
      simp [Except.map]
  rw [fails, foldlM_replaceUnder_eq_error_iff partMembers_independent,
    mapM_eq_error_iff]
  rfl

/-- Replacing succeeds only if every part can be replaced. -/
theorem exists_of_replaceParts
    {result : Datum} (success : replaceParts replace entries = .ok result)
    {part : Datum} (member : part ∈ parts entries) :
    ∃ replaced, replace part = .ok replaced := by
  cases outcome : (parts entries).mapM replace with
  | error fault =>
    have failure : replaceParts replace entries = .error fault :=
      replaceParts_eq_error_iff.2 (mapM_eq_error_iff.1 outcome)
    cases failure.symm.trans success
  | ok replaced =>
    rcases List.forall₂_iff_get.1 (mapM_eq_ok_iff.1 outcome) with
      ⟨lengths, every⟩
    rcases List.mem_iff_get.1 member with ⟨index, rfl⟩
    exact ⟨_, every index index.isLt (lengths ▸ index.isLt)⟩

/-- Only what becomes of the parts matters. -/
theorem foldlM_replaceUnder_congr
    (independent : IndependentMembers members)
    (same : ∀ part ∈ partsUnder entries members, replace part = other part) :
    members.foldlM (replaceUnder replace) entries =
      members.foldlM (replaceUnder other) entries := by
  induction members generalizing entries with
  | nil => rfl
  | cons member rest ih =>
    rw [partsUnder, List.flatMap_cons] at same
    rw [List.foldlM_cons, List.foldlM_cons, replaceUnder, replaceUnder]
    cases held : holding? entries member with
    | none =>
      rw [held] at same
      exact ih independent.tail same
    | some holding =>
      rw [held, List.forall_mem_append] at same
      have here : holding.parts.mapM replace = holding.parts.mapM other :=
        mapM_congr same.1
      simp only [here]
      cases holding.parts.mapM other with
      | error cause => rfl
      | ok replaced =>
        apply ih independent.tail
        rw [partsUnder_put independent]
        exact same.2

theorem replaceParts_congr
    (same : ∀ part ∈ parts entries, replace part = other part) :
    replaceParts replace entries = replaceParts other entries := by
  rw [replaceParts_eq, replaceParts_eq,
    foldlM_replaceUnder_congr partMembers_independent same]

/-! ## Success -/

/-- Objects of which one has other parts in the places of those of the other. -/
structure Replaced (becomes : Datum → Datum → Prop) (members : List String)
    (entries others : Entries) : Prop where
  agree : Entries.AgreeExcept (HoldsParts entries members) entries others
  held : ∀ member ∈ members, ∀ holding,
    holding? entries member = some holding →
      ∃ replaced, List.Forall₂ becomes holding.parts replaced ∧
        Entries.get? (.str member) others = some (holding.refill replaced)

theorem Replaced.imp
    {becomes alsoBecomes : Datum → Datum → Prop} {members : List String}
    (replaced : Replaced becomes members entries others)
    (more : ∀ part new, becomes part new → alsoBecomes part new) :
    Replaced alsoBecomes members entries others := by
  refine ⟨replaced.agree, ?_⟩
  intro member isMember holding holds
  rcases replaced.held member isMember holding holds with ⟨news, each, found⟩
  exact ⟨news, each.imp more, found⟩

/-- Every part of an object becomes something. -/
theorem Replaced.exists_of_part
    {becomes : Datum → Datum → Prop}
    (replaced : Replaced becomes partMembers entries others) {part : Datum}
    (isPart : part ∈ parts entries) : ∃ new, becomes part new := by
  rcases List.mem_flatMap.1 isPart with ⟨member, isMember, within⟩
  cases held : holding? entries member with
  | none =>
    rw [held] at within
    cases within
  | some holding =>
    rw [held] at within
    rcases replaced.held member isMember holding held with ⟨news, each, -⟩
    rcases List.mem_iff_get.1 within with ⟨index, rfl⟩
    rcases List.forall₂_iff_get.1 each with ⟨lengths, every⟩
    exact ⟨_, every index index.isLt (lengths ▸ index.isLt)⟩

theorem replaced_of_foldlM
    (independent : IndependentMembers members)
    (success : members.foldlM (replaceUnder replace) entries = .ok others) :
    Replaced (fun part replaced => replace part = .ok replaced) members
      entries others := by
  induction members generalizing entries with
  | nil =>
    cases success
    exact ⟨.refl _ _, by simp⟩
  | cons member rest ih =>
    rw [List.foldlM_cons] at success
    rcases exists_of_bind_eq_ok success with ⟨middle, first, behind⟩
    have below := ih independent.tail behind
    have elsewhere : ¬ HoldsParts middle rest (.str member) := by
      rintro ⟨other, isBehind, same, -⟩
      cases same
      exact (List.nodup_cons.1 independent.nodup).1 isBehind
    have atMember := below.agree.get?_eq elsewhere
    rw [replaceUnder] at first
    cases held : holding? entries member with
    | none =>
      rw [held] at first
      cases first
      constructor
      · refine below.agree.mono ?_
        rintro key ⟨other, isBehind, same, holds⟩
        exact ⟨other, List.mem_cons_of_mem _ isBehind, same, holds⟩
      · intro other isMember holding holds
        rcases List.mem_cons.1 isMember with rfl | isBehind
        · cases held.symm.trans holds
        · exact below.held other isBehind holding holds
    | some holding =>
      rw [held] at first
      rcases exists_of_bind_eq_ok first with ⟨replaced, each, same⟩
      cases same
      constructor
      · have here : Entries.get? (.str member) entries ≠ none :=
          get?_ne_none_of_holding (by simp [held])
        refine (Entries.agreeExcept_put here ?_).trans (below.agree.mono ?_)
        · exact ⟨member, List.mem_cons_self, rfl, by simp [held]⟩
        · rintro key ⟨other, isBehind, same, holds⟩
          rw [independent.holding?_put isBehind] at holds
          exact ⟨other, List.mem_cons_of_mem _ isBehind, same, holds⟩
      · intro other isMember otherHolding holds
        rcases List.mem_cons.1 isMember with rfl | isBehind
        · cases held.symm.trans holds
          refine ⟨replaced, mapM_eq_ok_iff.1 each, ?_⟩
          rw [atMember, Entries.get?_put_self]
        · exact
            below.held other isBehind otherHolding
              ((independent.holding?_put isBehind _).trans holds)

/-- What the parts of an object become makes the object that it becomes. -/
theorem replaced_of_replaceParts
    {result : Datum} (success : replaceParts replace entries = .ok result) :
    ∃ others, result = .map others ∧
      Replaced (fun part replaced => replace part = .ok replaced) partMembers
        entries others := by
  rw [replaceParts_eq] at success
  cases outcome : partMembers.foldlM (replaceUnder replace) entries with
  | error fault =>
    rw [outcome] at success
    cases success
  | ok others =>
    rw [outcome] at success
    cases success
    exact ⟨others, rfl, replaced_of_foldlM partMembers_independent outcome⟩

end ApiAtlas.Schema
