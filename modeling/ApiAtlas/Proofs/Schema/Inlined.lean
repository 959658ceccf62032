import ApiAtlas.Proofs.Data.Clear
import ApiAtlas.Proofs.Schema.Preservation

/-!
# Schemas without references

What inlining gives has no reference left where a walk looks for one, and is
nested no more deeply than the walk went.  So it is kept as it is by every
further walk, whatever the definitions are.  The members of the object at its
root are those of an object of the description, so their keys are clear if
those of the description are.
-/

namespace ApiAtlas.Schema

/--
A node without a reference at any place that a walk looks at, whose nesting
takes no more than a budget.
-/
inductive Inlined : Nat → Datum → Prop where
  | value {budget : Nat} {node : Datum}
      (noObject : ∀ entries, node ≠ .map entries) : Inlined (budget + 1) node
  | object {budget : Nat} {entries : Entries}
      (noReference : reference? (.map entries) = none)
      (each : ∀ part ∈ parts entries, Inlined budget part) :
      Inlined (budget + 1) (.map entries)

/-! ## Parts that are replaced by themselves -/

section Fixed

variable {replace : Datum → Except Fault Datum} {entries : Entries}

/-- Properties refilled with their own parts are the same properties. -/
theorem Holding.refill_properties (named : Entries) :
    (Holding.properties named).refill (Holding.properties named).parts =
      .map named := by
  rw [Holding.parts, Holding.refill, List.zipWith_map_right,
    List.zipWith_self, List.map_id'']
  exact fun _ => rfl

/-- A member that holds parts has the value that they make. -/
theorem get?_of_holding
    {member : String} {holding : Holding}
    (held : holding? entries member = some holding) :
    Entries.get? (.str member) entries =
      some (holding.refill holding.parts) := by
  rw [holding?] at held
  split at held
  · split at held
    · next found =>
      cases held
      exact found
    · cases held
  · split at held
    · next isProperties =>
      subst isProperties
      split at held
      · next named found =>
        cases held
        rw [found, Holding.refill_properties]
      · cases held
    · split at held
      · next isItems =>
        subst isItems
        split at held
        · next found =>
          cases held
          exact found
        · cases held
      · cases held

theorem mapM_of_fixed
    {nodes : List Datum} (fixed : ∀ node ∈ nodes, replace node = .ok node) :
    nodes.mapM replace = .ok nodes :=
  mapM_eq_ok_iff.2 (List.forall₂_same.2 fixed)

theorem replaceUnder_of_fixed
    {member : String}
    (fixed :
      ∀ part ∈ (holding? entries member).elim [] Holding.parts,
        replace part = .ok part) :
    replaceUnder replace entries member = .ok entries := by
  rw [replaceUnder]
  cases held : holding? entries member with
  | none => rfl
  | some holding =>
    rw [held] at fixed
    have same : holding.parts.mapM replace = .ok holding.parts :=
      mapM_of_fixed fixed
    simp only [same]
    exact congrArg Except.ok (Entries.put_of_get? (get?_of_holding held))

/-- An object is kept if all its parts are. -/
theorem replaceParts_of_fixed
    (fixed : ∀ part ∈ parts entries, replace part = .ok part) :
    replaceParts replace entries = .ok (.map entries) := by
  have members (some : List String)
      (fixed : ∀ part ∈ partsUnder entries some, replace part = .ok part) :
      some.foldlM (replaceUnder replace) entries = .ok entries := by
    induction some with
    | nil => rfl
    | cons member rest ih =>
      rw [partsUnder, List.flatMap_cons, List.forall_mem_append] at fixed
      rw [List.foldlM_cons, replaceUnder_of_fixed fixed.1]
      exact ih fixed.2
  rw [replaceParts_eq, members partMembers fixed]
  rfl

end Fixed

/-! ## Parts of objects whose parts have been replaced -/

section Replacing

variable {becomes : Datum → Datum → Prop} {entries others : Entries}

/-- Properties keep their names when their values are replaced. -/
theorem zipWith_eq_zip (named : Entries) (news : List Datum) :
    named.zipWith (fun entry part => (entry.1, part)) news =
      (named.map Prod.fst).zip news := by
  rw [List.zip, List.zipWith_map_left]

/-- What has been put in the places of parts is found there as parts. -/
theorem parts_of_refill
    {member : String} {holding later : Holding} {news : List Datum}
    (held : holding? entries member = some holding)
    (each : List.Forall₂ becomes holding.parts news)
    (found :
      Entries.get? (.str member) others = some (holding.refill news))
    (heldLater : holding? others member = some later) :
    later.parts = news := by
  rw [holding?] at held heldLater
  by_cases isComposite : member ∈ compositeMembers
  · rw [if_pos isComposite] at held heldLater
    split at held
    · cases held
      rw [found] at heldLater
      cases heldLater
      rfl
    · cases held
  · rw [if_neg isComposite] at held heldLater
    by_cases isProperties : member = "properties"
    · subst isProperties
      rw [if_pos rfl] at held heldLater
      split at held
      · next named _ =>
        cases held
        rw [found] at heldLater
        cases heldLater
        have lengths : (named.map Prod.fst).length = news.length := by
          rw [← each.length_eq, Holding.parts, List.length_map,
            List.length_map]
        rw [Holding.parts, zipWith_eq_zip]
        exact List.map_snd_zip (Nat.le_of_eq lengths.symm)
      · cases held
    · rw [if_neg isProperties] at held heldLater
      by_cases isItems : member = "items"
      · subst isItems
        rw [if_pos rfl] at held heldLater
        split at held
        · cases held
          rcases List.forall₂_cons_left_iff.1 each with
            ⟨new, none, -, nothing, rfl⟩
          cases nothing
          rw [found] at heldLater
          split at heldLater
          · next same =>
            cases heldLater
            cases same
            rfl
          · cases heldLater
        · cases held
      · rw [if_neg isItems] at held
        cases held

/-- A member that holds no parts does not come to hold some. -/
theorem Replaced.holding?_eq_none
    (replaced : Replaced becomes partMembers entries others) {member : String}
    (holdsNone : holding? entries member = none) :
    holding? others member = none := by
  have kind :
      Entries.get? (.str "type") others = Entries.get? (.str "type") entries := by
    apply replaced.get?_eq
    intro isMember
    exact (partMembers_independent.noKind isMember).elim
  rw [holding?_congr (replaced.get?_eq fun _ => holdsNone) kind]
  exact holdsNone

/-- The parts of what an object becomes are what its parts become. -/
theorem Replaced.exists_of_mem_parts
    (replaced : Replaced becomes partMembers entries others) {part : Datum}
    (isPart : part ∈ parts others) :
    ∃ original ∈ parts entries, becomes original part := by
  rcases List.mem_flatMap.1 isPart with ⟨member, isMember, within⟩
  cases heldLater : holding? others member with
  | none =>
    rw [heldLater] at within
    cases within
  | some later =>
    rw [heldLater] at within
    cases held : holding? entries member with
    | none => cases (replaced.holding?_eq_none held).symm.trans heldLater
    | some holding =>
      rcases replaced.held member isMember holding held with
        ⟨news, each, found⟩
      have partsEq : later.parts = news :=
        parts_of_refill held each found heldLater
      rw [Option.elim_some, partsEq] at within
      rcases exists_mem_of_forall₂ each within with
        ⟨original, isOriginal, related⟩
      refine ⟨original, List.mem_flatMap.2 ⟨member, isMember, ?_⟩, related⟩
      rw [held]
      exact isOriginal

end Replacing

/-! ## Inlining what is inlined -/

section Inlining

variable {definitions node result : Datum} {limit : Int} {budget more : Nat}
  {chain : List String} {entries : Entries}

theorem Inlined.mono
    (inlined : Inlined budget node) (enough : budget ≤ more) :
    Inlined more node := by
  induction inlined generalizing more with
  | value noObject =>
    cases more with
    | zero => exact (Nat.not_succ_le_zero _ enough).elim
    | succ more => exact .value noObject
  | object noReference _ ih =>
    cases more with
    | zero => exact (Nat.not_succ_le_zero _ enough).elim
    | succ more =>
      refine .object noReference ?_
      intro part isPart
      exact ih part isPart (Nat.le_of_succ_le_succ enough)

/-- What inlining gives is inlined. -/
theorem inlined_of_inlineWithin
    (success : inlineWithin definitions limit budget chain node = .ok result) :
    Inlined budget result := by
  induction success using inlineWithin_induction with
  | follow _ _ _ _ _ ih => exact ih.mono (Nat.le_succ _)
  | object noReference _ replaced =>
    refine .object ((replaced.agree.get?_eq_none_iff _).2 noReference) ?_
    intro part isPart
    rcases replaced.exists_of_mem_parts isPart with ⟨_, -, _, inlined⟩
    exact inlined
  | value noObject => exact .value noObject

/-- What is inlined is kept by every walk. -/
theorem Inlined.inlineWithin_eq
    (inlined : Inlined budget node) (definitions : Datum) (limit : Int)
    (chain : List String) :
    inlineWithin definitions limit budget chain node = .ok node := by
  induction inlined with
  | value noObject => exact inlineWithin_of_no_map noObject
  | object noReference _ ih =>
    rw [inlineWithin_of_object noReference]
    exact replaceParts_of_fixed ih

/--
Inlining is closed and idempotent: what it gives under a limit is kept by
inlining over any definitions under every limit that is not smaller.
-/
theorem inline_idempotent
    {node definitions result : Datum} {limit : Int}
    (success : inline node definitions limit = .ok result) (others : Datum)
    {larger : Int} (le : limit ≤ larger) :
    inline result others larger = .ok result := by
  have inlined : Inlined (walkBudget larger) result :=
    (inlined_of_inlineWithin success).mono (walkBudget_mono le)
  exact inlined.inlineWithin_eq others larger []

/-- Two references on the way take up a limit that the result does not meet. -/
theorem inline_idempotent_items_by_alias :
    inline (arrayOf (referring "Alias")) textAndAlias 3 =
        .ok (arrayOf (.object [("type", .str "string")])) ∧
      (3 : Int) ≤ 4 ∧
      inline (arrayOf (.object [("type", .str "string")])) (.map []) 4 =
        .ok (arrayOf (.object [("type", .str "string")])) := by
  have success :
      inline (arrayOf (referring "Alias")) textAndAlias 3 =
        .ok (arrayOf (.object [("type", .str "string")])) := by
    decide +kernel
  exact
    ⟨success, by decide, inline_idempotent success (.map []) (by decide)⟩

/-- A member that makes no reference does not change whether there is one. -/
theorem reference?_put
    {text : String} (noReference : text ≠ referenceMember) (value : Datum) :
    reference? (.map (Entries.put (.str text) value entries)) =
      reference? (.map entries) := by
  rw [reference?, Datum.field?, Entries.get?_put_of_ne noReference.symm]
  rfl

/-- A member that holds no parts does not change them. -/
theorem parts_put
    {text : String} (noKind : text ≠ "type") (noPart : text ∉ partMembers)
    (value : Datum) :
    parts (Entries.put (.str text) value entries) = parts entries := by
  rw [parts, parts, partsUnder, partsUnder]
  apply List.flatMap_congr
  intro member isMember
  rw [holding?_put noKind]
  rintro rfl
  exact noPart isMember

/-- A member that neither holds parts nor makes a reference can be added. -/
theorem Inlined.put
    (inlined : Inlined budget (.map entries)) {text : String}
    (noReference : text ≠ referenceMember) (noKind : text ≠ "type")
    (noPart : text ∉ partMembers) (value : Datum) :
    Inlined budget (.map (Entries.put (.str text) value entries)) := by
  cases inlined with
  | value noObject => exact (noObject entries rfl).elim
  | object none each =>
    refine .object ((reference?_put noReference value).trans none) ?_
    rw [parts_put noKind noPart]
    exact each

/-! ## The keys of what is inlined -/

/-- The object at the root has the keys of an object of the description. -/
theorem hasClearKeys_of_inlineWithin
    (clearDefinitions : definitions.IsClear)
    (clear : node.IsClear)
    (success :
      inlineWithin definitions limit budget chain node =
        .ok (.map entries)) :
    entries.HasClearKeys := by
  generalize isObject : Datum.map entries = result at success
  induction success using inlineWithin_induction with
  | follow _ followed _ _ _ ih =>
    rcases followReference_eq_ok_iff.1 followed with ⟨text, -, -, -, defined⟩
    exact ih (clearDefinitions.of_held? defined) isObject
  | object _ _ replaced =>
    cases isObject
    exact clear.of_map.of_keys replaced.agree.keys
  | value noObject => exact (noObject entries isObject.symm).elim

end Inlining

end ApiAtlas.Schema
