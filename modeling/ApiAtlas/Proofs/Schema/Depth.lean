import ApiAtlas.Proofs.Schema.Reference

/-!
# The depth of walks

A walk goes down in a finite value, and into the definition of each name at
most once.  So the maps within each other in the value and in all definitions
bound its length, and a limit that is not below this bound is never met.

A limit that is met shows in the outcome, and any other outcome is the same
under every larger limit.
-/

namespace ApiAtlas

namespace Datum

mutual

/-- The number of maps that a value has within each other. -/
def nesting : Datum → Nat
  | .map entries => nestingOfEntries entries + 1
  | .list items => nestingOfItems items
  | _ => 0

/-- The nesting of the most nested item. -/
def nestingOfItems : List Datum → Nat
  | [] => 0
  | item :: rest => max (nesting item) (nestingOfItems rest)

/-- The nesting of the most nested value of some entries. -/
def nestingOfEntries : List (Scalar × Datum) → Nat
  | [] => 0
  | (_, value) :: rest => max (nesting value) (nestingOfEntries rest)

end

theorem nesting_le_of_mem_items
    {items : List Datum} {item : Datum} (member : item ∈ items) :
    item.nesting ≤ nestingOfItems items := by
  induction items with
  | nil => cases member
  | cons first rest ih =>
    rw [nestingOfItems]
    rcases List.mem_cons.1 member with rfl | behind
    · exact Nat.le_max_left _ _
    · exact Nat.le_trans (ih behind) (Nat.le_max_right _ _)

theorem nesting_le_of_mem_values
    {entries : Entries} {value : Datum}
    (member : value ∈ entries.map Prod.snd) :
    value.nesting ≤ nestingOfEntries entries := by
  induction entries with
  | nil => cases member
  | cons first rest ih =>
    rw [nestingOfEntries]
    rcases List.mem_cons.1 member with rfl | behind
    · exact Nat.le_max_left _ _
    · exact Nat.le_trans (ih behind) (Nat.le_max_right _ _)

theorem nesting_le_of_get?
    {entries : Entries} {key : Scalar} {value : Datum}
    (found : Entries.get? key entries = some value) :
    value.nesting ≤ nestingOfEntries entries := by
  rcases Entries.exists_mem_of_get? found with ⟨entry, present, rfl⟩
  exact nesting_le_of_mem_values (List.mem_map_of_mem present)

end Datum

namespace Schema

variable {entries : Entries} {limit : Int}

/-- Whatever holds parts is a value of the object that is not less nested. -/
theorem Holding.nesting_le
    {member : String} {holding : Holding}
    (holds : holding? entries member = some holding) {part : Datum}
    (isPart : part ∈ holding.parts) :
    part.nesting ≤ Datum.nestingOfEntries entries := by
  rw [holding?] at holds
  split at holds
  · split at holds
    · next listed found =>
      cases holds
      have above := Datum.nesting_le_of_get? found
      rw [Datum.nesting] at above
      exact Nat.le_trans (Datum.nesting_le_of_mem_items isPart) above
    · cases holds
  · split at holds
    · split at holds
      · next named found =>
        cases holds
        have above := Datum.nesting_le_of_get? found
        rw [Datum.nesting] at above
        exact
          Nat.le_trans (Datum.nesting_le_of_mem_values isPart)
            (Nat.le_of_succ_le above)
      · cases holds
    · split at holds
      · split at holds
        · next inner isArray found =>
          cases holds
          rw [List.mem_singleton.1 isPart]
          exact Datum.nesting_le_of_get? found
        · cases holds
      · cases holds

/-- The parts of an object are less nested than the object. -/
theorem nesting_lt_of_mem_parts {part : Datum} (isPart : part ∈ parts entries) :
    part.nesting < (Datum.map entries).nesting := by
  rw [parts, partsUnder, List.mem_flatMap] at isPart
  rcases isPart with ⟨member, -, isHeld⟩
  cases holds : holding? entries member with
  | none =>
    rw [holds] at isHeld
    cases isHeld
  | some holding =>
    rw [holds] at isHeld
    rw [Datum.nesting]
    exact Nat.lt_succ_of_le (Holding.nesting_le holds isHeld)

/-! ## Definitions that are still to be entered -/

/-- What the definitions whose names are not on a chain can add to a walk. -/
def pendingNesting (chain : List String) : Entries → Nat
  | [] => 0
  | (key, value) :: rest =>
    (if key ∈ chain.map Scalar.str then 0 else value.nesting + 1) +
      pendingNesting chain rest

/-- The limit that no walk from a node over some definitions meets. -/
def depthBound (node : Datum) (definitions : Entries) : Nat :=
  node.nesting + pendingNesting [] definitions

theorem mem_texts_append_iff {key : Scalar} {chain : List String} {name : String} :
    key ∈ (chain ++ [name]).map Scalar.str ↔
      key ∈ chain.map Scalar.str ∨ key = .str name := by
  rw [List.map_append, List.mem_append, List.map_singleton,
    List.mem_singleton]

theorem pendingNesting_append_le (chain : List String) (name : String)
    (definitions : Entries) :
    pendingNesting (chain ++ [name]) definitions ≤
      pendingNesting chain definitions := by
  induction definitions with
  | nil => exact Nat.le_refl 0
  | cons entry rest ih =>
    rw [pendingNesting, pendingNesting]
    refine Nat.add_le_add ?_ ih
    by_cases old : entry.1 ∈ chain.map Scalar.str
    · rw [if_pos (mem_texts_append_iff.2 (Or.inl old))]
      exact Nat.zero_le _
    · rw [if_neg old]
      split
      · exact Nat.zero_le _
      · exact Nat.le_refl _

/-- To enter a definition takes away what it could add. -/
theorem pendingNesting_of_entered
    {chain : List String} {name : String} {definitions : Entries}
    {target : Datum} (new : name ∉ chain)
    (found : Entries.get? (.str name) definitions = some target) :
    target.nesting + 1 + pendingNesting (chain ++ [name]) definitions ≤
      pendingNesting chain definitions := by
  induction definitions with
  | nil => cases found
  | cons entry rest ih =>
    rw [Entries.get?_cons] at found
    rw [pendingNesting, pendingNesting]
    by_cases here : entry.1 = .str name
    · rw [if_pos (Scalar.same_str_iff.2 here)] at found
      cases found
      have isNew : entry.1 ∉ chain.map Scalar.str := by
        rw [here, List.mem_map]
        rintro ⟨other, old, same⟩
        exact new (Scalar.str.inj same ▸ old)
      rw [if_pos (mem_texts_append_iff.2 (Or.inr here)), if_neg isNew,
        Nat.zero_add]
      exact
        Nat.add_le_add_left (pendingNesting_append_le chain name rest) _
    · rw [if_neg (mt Scalar.same_str_iff.1 here)] at found
      have behind := ih found
      have same :
          entry.1 ∈ (chain ++ [name]).map Scalar.str ↔
            entry.1 ∈ chain.map Scalar.str := by
        rw [mem_texts_append_iff, or_iff_left here]
      simp only [same]
      omega

/-! ## Limits that are met -/

/-- A fault that says that a limit of depth has been met. -/
def IsDepthFault (limit : Int) (fault : Fault) : Prop :=
  ∃ chain, fault = .cyclicReference chain (.depthAbove limit)

theorem definition?_map (definitions : Entries) (name : String) :
    definition? (.map definitions) name =
      .ok (Entries.get? (.str name) definitions) :=
  rfl

theorem referenceName_eq_error
    {text : String} {fault : Fault}
    (failure : referenceName text = .error fault) :
    fault = .unresolvedReference text := by
  rw [referenceName] at failure
  split at failure
  · cases failure
  · cases failure
    rfl

/-- A text is resolved in a map of definitions, or said to be unresolved. -/
theorem resolve_eq_error
    {text : String} {definitions : Entries} {fault : Fault}
    (failure : resolve text (.map definitions) = .error fault) :
    fault = .unresolvedReference text := by
  rw [resolve] at failure
  cases named : referenceName text with
  | error cause =>
    rw [named] at failure
    cases failure
    exact referenceName_eq_error named
  | ok name =>
    rw [named] at failure
    simp only [definition?_map, bind, Except.bind] at failure
    cases found : Entries.get? (.str name) definitions with
    | none =>
      rw [found] at failure
      cases failure
      rfl
    | some target =>
      rw [found] at failure
      cases failure

/-- Why a reference to a name is not followed. -/
theorem followReference_eq_error
    {text : String} {definitions : Entries} {chain : List String} {fault : Fault}
    (failure :
      followReference (.map definitions) chain (.str text) = .error fault) :
    (fault = .unresolvedReference text ∧
        resolve text (.map definitions) = .error (.unresolvedReference text)) ∨
      ∃ name, referenceName text = .ok name ∧ name ∈ chain ∧
        fault = .cyclicReference (chain ++ [name]) .cycle := by
  simp only [followReference, referenceText, bind, Except.bind] at failure
  cases named : referenceName text with
  | error cause =>
    rw [named] at failure
    cases failure
    cases referenceName_eq_error named
    refine Or.inl ⟨rfl, ?_⟩
    rw [resolve, named]
    rfl
  | ok name =>
    rw [named] at failure
    dsimp only at failure
    by_cases old : name ∈ chain
    · rw [if_pos old] at failure
      cases failure
      exact Or.inr ⟨name, rfl, old, rfl⟩
    · rw [if_neg old] at failure
      cases resolved : resolve text (.map definitions) with
      | error cause =>
        rw [resolved] at failure
        cases failure
        cases resolve_eq_error resolved
        exact Or.inl ⟨rfl, rfl⟩
      | ok target =>
        rw [resolved] at failure
        cases failure

theorem not_isDepthFault_of_followReference
    {reference : Datum} {definitions : Entries} {chain : List String}
    {fault : Fault}
    (failure :
      followReference (.map definitions) chain reference = .error fault) :
    ¬ IsDepthFault limit fault := by
  rintro ⟨names, rfl⟩
  by_cases isText : ∃ text, reference = .str text
  · rcases isText with ⟨text, rfl⟩
    rcases followReference_eq_error failure with ⟨same, -⟩ | ⟨name, -, -, same⟩
    · cases same
    · cases same
  · have misused : referenceText reference = .error (.misuse .unsupported) := by
      unfold referenceText
      split
      · next text => exact (isText ⟨text, rfl⟩).elim
      · rfl
    rw [followReference, misused] at failure
    cases failure

/-- A budget above what a walk can use is never used up. -/
theorem not_isDepthFault_of_enough
    {node : Datum} {definitions : Entries} {chain : List String} {budget : Nat}
    {fault : Fault}
    (enough : node.nesting + pendingNesting chain definitions < budget)
    (failure :
      inlineWithin (.map definitions) limit budget chain node =
        .error fault) :
    ¬ IsDepthFault limit fault := by
  induction failure using inlineWithin_error_induction with
  | spent => exact (Nat.not_lt_zero _ enough).elim
  | refused _ followed _ => exact not_isDepthFault_of_followReference followed
  | follow _ followed _ _ ih =>
    rcases followReference_eq_ok_iff.1 followed with
      ⟨text, -, -, new, defined⟩
    rw [definition?_map, Except.ok.injEq] at defined
    have left := pendingNesting_of_entered new defined
    exact ih (by omega)
  | part _ found _ _ _ ih =>
    have smaller := nesting_lt_of_mem_parts (List.mem_of_getElem? found)
    exact ih (by omega)

/-! ## Larger limits -/

/-- Outcomes that are the same unless a limit is met in the first one. -/
def SameUnlessDeep (limit : Int) (outcome other : Except Fault Datum) : Prop :=
  (∃ chain, outcome = .error (.cyclicReference chain (.depthAbove limit))) ∨
    outcome = other

theorem sameUnlessDeep_replaceParts
    {replace other : Datum → Except Fault Datum}
    (same : ∀ part, SameUnlessDeep limit (replace part) (other part))
    (entries : Entries) :
    SameUnlessDeep limit (replaceParts replace entries)
      (replaceParts other entries) := by
  cases outcome : replaceParts replace entries with
  | ok result =>
    refine Or.inr (outcome.symm.trans (replaceParts_congr ?_))
    intro part isPart
    rcases exists_of_replaceParts outcome isPart with ⟨replaced, passed⟩
    rcases same part with ⟨chain, deep⟩ | same
    · cases passed.symm.trans deep
    · exact same
  | error fault =>
    rcases replaceParts_eq_error_iff.1 outcome with
      ⟨index, part, found, failed, earlier⟩
    rcases same part with ⟨chain, deep⟩ | partSame
    · cases failed.symm.trans deep
      exact Or.inl ⟨chain, rfl⟩
    · refine Or.inr (Eq.symm (replaceParts_eq_error_iff.2 ?_))
      refine ⟨index, part, found, partSame ▸ failed, ?_⟩
      intro position before next nextFound
      rcases earlier position before next nextFound with ⟨replaced, passed⟩
      rcases same next with ⟨chain, deep⟩ | nextSame
      · cases passed.symm.trans deep
      · exact ⟨replaced, nextSame ▸ passed⟩

theorem sameUnlessDeep_inlineWithin
    {definitions : Datum} {limit larger : Int} {budget more : Nat}
    (le : budget ≤ more) (chain : List String) (node : Datum) :
    SameUnlessDeep limit (inlineWithin definitions limit budget chain node)
      (inlineWithin definitions larger more chain node) := by
  induction budget generalizing more chain node with
  | zero => exact Or.inl ⟨chain, rfl⟩
  | succ budget ih =>
    cases more with
    | zero => exact (Nat.not_succ_le_zero budget le).elim
    | succ more =>
      have below := Nat.le_of_succ_le_succ le
      cases isReference : reference? node with
      | some reference =>
        rw [inlineWithin_of_reference isReference,
          inlineWithin_of_reference isReference]
        cases followReference definitions chain reference with
        | error fault => exact Or.inr rfl
        | ok next => exact ih below _ _
      | none =>
        by_cases isObject : ∃ entries, node = .map entries
        · rcases isObject with ⟨entries, rfl⟩
          rw [inlineWithin_of_object isReference,
            inlineWithin_of_object isReference]
          exact sameUnlessDeep_replaceParts (ih below chain) entries
        · rw [not_exists] at isObject
          rw [inlineWithin_of_no_map isObject,
            inlineWithin_of_no_map isObject]
          exact Or.inr rfl

/-- A limit is met or the outcome is that under every larger limit. -/
theorem sameUnlessDeep_inline
    {node definitions : Datum} {limit larger : Int} (le : limit ≤ larger) :
    SameUnlessDeep limit (inline node definitions limit)
      (inline node definitions larger) :=
  sameUnlessDeep_inlineWithin (walkBudget_mono le) [] node

end Schema

end ApiAtlas
