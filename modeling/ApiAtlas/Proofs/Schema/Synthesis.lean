import ApiAtlas.Proofs.Filter.Nesting
import ApiAtlas.Proofs.Schema.Alongside
import ApiAtlas.Proofs.Schema.Cycle

/-!
# Examples before and after inlining

The walk that makes up examples goes where the walk goes that replaces
references: it follows the same references and enters the same parts, at the
same depth.  So a schema that can be inlined has examples, and what inlining
gives has examples whatever the definitions are.
-/

namespace ApiAtlas.Schema

/-! ## Schemas from which examples can be made up -/

/-- The objects that a walk over a schema meets when it follows references. -/
inductive Meets (definitions : Datum) : Datum → Entries → Prop where
  | here {node : Datum} {entries : Entries}
      (resolved : Resolves definitions node (.map entries)) :
      Meets definitions node entries
  | inPart {node part : Datum} {entries inner : Entries}
      (resolved : Resolves definitions node (.map entries))
      (isPart : part ∈ parts entries) (met : Meets definitions part inner) :
      Meets definitions node inner

theorem Meets.of_reference
    {definitions node target : Datum} {text : String} {entries : Entries}
    (isReference : reference? node = some (.str text))
    (found : resolve text definitions = .ok target)
    (met : Meets definitions target entries) :
    Meets definitions node entries := by
  cases met with
  | here resolved => exact .here (.follow isReference found resolved)
  | inPart resolved isPart met =>
    exact .inPart (.follow isReference found resolved) isPart met

variable {alike : Prop} {becomes : Datum → Datum → Prop}
  {entries others : Entries}

/-! ## The two walks -/

section Walks

variable {definitions node result : Datum} {limit : Int} {budget : Nat}
  {chain : List String}

theorem examplesWithin_of_reference
    {reference : Datum} (isReference : reference? node = some reference) :
    examplesWithin definitions limit (budget + 1) chain node =
      (followReference definitions chain reference >>= fun followed =>
        examplesWithin definitions limit budget (chain ++ [followed.1])
          followed.2) := by
  conv_lhs => unfold examplesWithin
  rw [isReference]

theorem examplesWithin_of_stated
    {stated : List Datum} (noReference : reference? (.map entries) = none)
    (states : statedExamples? entries = some stated) :
    examplesWithin definitions limit (budget + 1) chain (.map entries) =
      .ok stated := by
  unfold examplesWithin
  rw [noReference]
  dsimp only
  rw [states]

theorem examplesWithin_of_unstated
    (noReference : reference? (.map entries) = none)
    (statesNone : statedExamples? entries = none) :
    examplesWithin definitions limit (budget + 1) chain (.map entries) =
      (compositeExamples (examplesWithin definitions limit budget chain)
          entries compositeMembers >>= fun found =>
        if found.isEmpty then
          typeExamples (examplesWithin definitions limit budget chain) entries
        else pure found) := by
  conv_lhs => unfold examplesWithin
  rw [noReference]
  dsimp only
  rw [statesNone]

theorem examplesWithin_of_no_map (noMap : ∀ entries, node ≠ .map entries) :
    examplesWithin definitions limit (budget + 1) chain node =
      .ok [.null] := by
  unfold examplesWithin
  rw [reference?_eq_none_of_no_map noMap]
  cases node with
  | map entries => exact (noMap entries rfl).elim
  | _ => rfl

/-- Only what becomes of the parts of an object matters. -/
theorem Replaced.imp_of_mem
    {alsoBecomes : Datum → Datum → Prop}
    (replaced : Replaced becomes partMembers entries others)
    (more : ∀ part ∈ parts entries, ∀ new,
      becomes part new → alsoBecomes part new) :
    Replaced alsoBecomes partMembers entries others := by
  refine ⟨replaced.agree, ?_⟩
  intro member isMember holding holds
  rcases replaced.held member isMember holding holds with ⟨news, each, found⟩
  refine ⟨news, ?_, found⟩
  rw [List.forall₂_iff_get] at each ⊢
  refine ⟨each.1, fun index here there => ?_⟩
  exact
    more _ (mem_parts_of_holding isMember holds (List.get_mem _ _)) _
      (each.2 index here there)

/-- One step of the two walks at an object whose parts they have gone over. -/
theorem alongside_of_parts
    {elsewhere : Datum} {otherLimit : Int} {more : Nat}
    {otherChain : List String}
    (noReference : reference? (.map entries) = none)
    (inParts :
      PartsAlongside alike definitions
        (examplesWithin definitions limit budget chain)
        (examplesWithin elsewhere otherLimit more otherChain) entries others)
    (wellFormed : WellFormed entries)
    (states : alike → StatesItems definitions entries) :
    Alongside alike
      (examplesWithin definitions limit (budget + 1) chain (.map entries))
      (examplesWithin elsewhere otherLimit (more + 1) otherChain
        (.map others)) := by
  have otherNoReference : reference? (.map others) = none :=
    (inParts.agree.get?_eq_none_iff _).2 noReference
  have same := statedExamples?_eq inParts
  cases given : statedExamples? entries with
  | some stated =>
    rw [examplesWithin_of_stated noReference given,
      examplesWithin_of_stated otherNoReference (same.trans given)]
    exact alongside_ok
  | none =>
    rw [examplesWithin_of_unstated noReference given,
      examplesWithin_of_unstated otherNoReference (same.trans given)]
    apply alongside_madeExamples inParts _ _ wellFormed states
    · intro node found made
      exact examplesWithin_ne_nil made
    · intro node found made
      exact examplesWithin_ne_nil made

/--
Where inlining succeeds both walks give examples.  The walk over the result
follows no references, so it keeps the budget that the other walk spends on
them.
-/
theorem alongside_of_inlineWithin
    {elsewhere : Datum} {otherLimit : Int} {more : Nat}
    {otherChain : List String}
    (success :
      inlineWithin definitions limit budget chain node = .ok result)
    (wellFormed :
      ∀ entries, Meets definitions node entries → WellFormed entries)
    (states : alike → ∀ entries,
      Meets definitions node entries → StatesItems definitions entries)
    (enough : budget ≤ more) :
    Alongside alike (examplesWithin definitions limit budget chain node)
      (examplesWithin elsewhere otherLimit more otherChain result) := by
  induction success using inlineWithin_induction generalizing more with
  | follow isReference followed found _ _ ih =>
    rw [examplesWithin_of_reference isReference, followed]
    apply ih
    · intro entries met
      exact wellFormed entries (met.of_reference isReference found)
    · intro condition entries met
      exact states condition entries (met.of_reference isReference found)
    · exact Nat.le_of_succ_le enough
  | @object budget chain entries others noReference _ replaced =>
    rcases Nat.exists_eq_add_of_le' enough with ⟨extra, rfl⟩
    rw [← Nat.add_assoc]
    have here : Resolves definitions (.map entries) (.map entries) :=
      .value noReference
    have inParts :
        PartsAlongside alike definitions
          (examplesWithin definitions limit budget chain)
          (examplesWithin elsewhere otherLimit (extra + budget) otherChain)
          entries others := by
      apply replaced.imp_of_mem
      rintro part isPart new ⟨done, ih⟩
      refine ⟨⟨limit, budget, chain, done⟩, ?_⟩
      apply ih
      · intro inner met
        exact wellFormed inner (.inPart here isPart met)
      · intro condition inner met
        exact states condition inner (.inPart here isPart met)
      · exact Nat.le_add_left budget extra
    apply alongside_of_parts noReference inParts
    · exact wellFormed entries (.here here)
    · intro condition
      exact states condition entries (.here here)
  | value noObject =>
    rcases Nat.exists_eq_add_of_le' enough with ⟨extra, rfl⟩
    rw [← Nat.add_assoc, examplesWithin_of_no_map noObject,
      examplesWithin_of_no_map noObject]
    exact alongside_ok

end Walks

/--
A schema that is inlined and whose objects are well formed has examples.  What
inlining gives has examples whatever the definitions are, and its filter fields
are found without going too deep.  The examples are those of the schema itself
if no items are empty behind their references.
-/
theorem examples_of_inline
    {node definitions result : Datum}
    (success : inline node definitions depthLimit = .ok result)
    (wellFormed :
      ∀ entries, Meets definitions node entries → WellFormed entries) :
    (∃ stated, examples node definitions = .ok stated ∧ stated ≠ [] ∧
        ∀ others, ∃ found, examples result others = .ok found ∧ found ≠ [] ∧
          ((∀ entries, Meets definitions node entries →
              StatesItems definitions entries) →
            found = stated)) ∧
      ∀ path, Filter.fieldsOf result ≠ .error (.nestedTooDeep path) := by
  have beside (others : Datum) :
      Alongside
        (∀ entries, Meets definitions node entries →
          StatesItems definitions entries)
        (examples node definitions) (examples result others) :=
    alongside_of_inlineWithin success wellFormed id (Nat.le_refl _)
  constructor
  · rcases beside definitions with ⟨stated, -, made, -⟩
    refine ⟨stated, made, examplesWithin_ne_nil made, ?_⟩
    intro others
    rcases beside others with ⟨again, found, same, given, -, alike⟩
    cases made.symm.trans same
    exact ⟨found, given, examplesWithin_ne_nil given, alike⟩
  · intro path tooDeep
    exact Filter.not_isTooDeep_fieldsOf success ⟨path, tooDeep⟩

/-! ## Arrays whose items are a definition -/

/-- The array whose items refer to a definition. -/
def listOf (name : String) : Entries :=
  Fields.toEntries [("type", .str "array"), ("items", referring name)]

/-- The objects of an array are itself and its items. -/
theorem eq_of_meets_listOf
    {definitions : Datum} {name : String} {inner entries : Entries}
    (items : parts (listOf name) = [referring name])
    (defined : Resolves definitions (referring name) (.map inner))
    (noParts : parts inner = [])
    (met : Meets definitions (.map (listOf name)) entries) :
    entries = listOf name ∨ entries = inner := by
  have itself :
      Resolves definitions (.map (listOf name)) (.map (listOf name)) :=
    .value rfl
  cases met with
  | here resolved =>
    cases resolved.unique itself
    exact Or.inl rfl
  | inPart resolved isPart met =>
    cases resolved.unique itself
    rw [items, List.mem_singleton] at isPart
    subst isPart
    cases met with
    | here resolved =>
      cases resolved.unique defined
      exact Or.inr rfl
    | inPart resolved isPart =>
      cases resolved.unique defined
      rw [noParts] at isPart
      cases isPart

theorem wellFormed_of_absent
    {entries : Entries} (noItems : Entries.get? (.str "items") entries = none)
    (noProperties : Entries.get? (.str "properties") entries = none)
    (noChoices : Entries.get? (.str "enum") entries = none) :
    WellFormed entries := by
  refine ⟨?_, ?_, ?_⟩
  · intro _ items found
    cases noItems.symm.trans found
  · intro held found
    cases noProperties.symm.trans found
  · intro held found
    cases noChoices.symm.trans found

theorem wellFormed_listOf (name : String) : WellFormed (listOf name) := by
  refine ⟨?_, ?_, ?_⟩
  · intro _ items held _
    cases held
    exact ⟨_, rfl⟩
  · intro held found
    cases found
  · intro held found
    cases found

/-- The texts that a definition describes, as an array. -/
theorem examples_of_inline_texts :
    inline (.map (listOf "Text")) (.map sharedText) depthLimit =
        .ok
          (.object
            [("type", .str "array"),
              ("items", .object [("type", .str "string")])]) ∧
      examples (.map (listOf "Text")) (.map sharedText) =
        .ok [.list [.str ""]] ∧
      ∀ others,
        examples
            (.object
              [("type", .str "array"),
                ("items", .object [("type", .str "string")])])
            others =
          .ok [.list [.str ""]] := by
  have success :
      inline (.map (listOf "Text")) (.map sharedText) depthLimit =
        .ok
          (.object
            [("type", .str "array"),
              ("items", .object [("type", .str "string")])]) := by
    decide +kernel
  have text :
      Resolves (.map sharedText) (referring "Text")
        (.object [("type", .str "string")]) :=
    .follow rfl (by decide +kernel) (.value rfl)
  have objects (entries : Entries)
      (met : Meets (.map sharedText) (.map (listOf "Text")) entries) :
      entries = listOf "Text" ∨
        entries = Fields.toEntries [("type", .str "string")] :=
    eq_of_meets_listOf (by decide +kernel) text (by decide +kernel) met
  have wellFormed (entries : Entries)
      (met : Meets (.map sharedText) (.map (listOf "Text")) entries) :
      WellFormed entries := by
    rcases objects entries met with rfl | rfl
    · exact wellFormed_listOf "Text"
    · exact wellFormed_of_absent rfl rfl rfl
  have states (entries : Entries)
      (met : Meets (.map sharedText) (.map (listOf "Text")) entries) :
      StatesItems (.map sharedText) entries := by
    rcases objects entries met with rfl | rfl
    · intro _ items target found _ resolved
      cases found
      cases resolved.unique text
      rfl
    · intro _ items target found
      cases found
  have given :
      examples (.map (listOf "Text")) (.map sharedText) =
        .ok [.list [.str ""]] := by
    decide +kernel
  refine ⟨success, given, ?_⟩
  intro others
  rcases examples_of_inline success wellFormed with
    ⟨⟨stated, made, -, alike⟩, -⟩
  rcases alike others with ⟨found, outcome, -, same⟩
  rw [outcome, same states, ← made, given]

/-- The definition of a schema that says nothing. -/
def anything : Entries := Fields.toEntries [("Any", .object [])]

/-- An array of anything has an item before inlining and none after it. -/
theorem not_forall_examples_of_inline :
    ¬ ∀ node definitions result : Datum,
        inline node definitions depthLimit = .ok result →
          (∀ entries, Meets definitions node entries → WellFormed entries) →
            ∀ others, examples result others = examples node definitions := by
  intro same
  have success :
      inline (.map (listOf "Any")) (.map anything) depthLimit =
        .ok (.object [("type", .str "array"), ("items", .object [])]) := by
    decide +kernel
  have nothing :
      Resolves (.map anything) (referring "Any") (.object []) :=
    .follow rfl (by decide +kernel) (.value rfl)
  have wellFormed (entries : Entries)
      (met : Meets (.map anything) (.map (listOf "Any")) entries) :
      WellFormed entries := by
    rcases
      eq_of_meets_listOf (by decide +kernel) nothing (by decide +kernel) met with
      rfl | rfl
    · exact wellFormed_listOf "Any"
    · exact wellFormed_of_absent rfl rfl rfl
  have equal := same _ _ _ success wellFormed (.map anything)
  revert equal
  decide +kernel

end ApiAtlas.Schema
