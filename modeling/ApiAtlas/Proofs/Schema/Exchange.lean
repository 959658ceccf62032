import ApiAtlas.Proofs.Schema.Inlined

/-!
# Parts that are moved to definitions

A part of a schema can be moved to a new definition, with a reference left in
its place.  Where both schemas can be inlined the results are the same: the
walk over the one comes through the reference to the part that stands in the
other, and elsewhere the walks go side by side.

The part may stand at any place to which branches, properties and items lead,
if the walk enters the arrays on the way.
-/

namespace ApiAtlas.Schema

/-! ## One member exchanged -/

section Member

variable {replace other : Datum → Except Fault Datum} {entries : Entries}
  {members : List String} {member : String} {value final : Datum}

/-- What stands under a member after its parts have been replaced. -/
def outcomeUnder (replace : Datum → Except Fault Datum) (entries : Entries)
    (member : String) (value : Datum) : Except Fault Datum :=
  match holding? entries member with
  | some holding => (holding.parts.mapM replace).map holding.refill
  | none => .ok value

theorem replaceUnder_eq
    (held : Entries.get? (.str member) entries = some value) :
    replaceUnder replace entries member =
      (outcomeUnder replace entries member value).map fun final =>
        Entries.put (.str member) final entries := by
  rw [replaceUnder, outcomeUnder]
  cases holding? entries member with
  | none =>
    change _ = Except.ok (Entries.put (.str member) value entries)
    rw [Entries.put_of_get? held]
  | some holding =>
    dsimp only
    cases holding.parts.mapM replace <;> rfl

theorem outcomeUnder_put
    {put : String} (noKind : put ≠ "type") (different : member ≠ put)
    (there : Datum) :
    outcomeUnder replace (Entries.put (.str put) there entries) member value =
      outcomeUnder replace entries member value := by
  rw [outcomeUnder, outcomeUnder, holding?_put noKind different]

theorem foldlM_replaceUnder_put_first
    (independent : IndependentMembers (member :: members))
    (held : Entries.get? (.str member) entries = some value) {new : Datum}
    (one : outcomeUnder replace entries member value = .ok final)
    (also :
      outcomeUnder other (Entries.put (.str member) new entries) member new =
        .ok final)
    (same : ∀ part ∈ partsUnder entries members, other part = replace part) :
    (member :: members).foldlM (replaceUnder other)
        (Entries.put (.str member) new entries) =
      (member :: members).foldlM (replaceUnder replace) entries := by
  have newHeld :
      Entries.get? (.str member) (Entries.put (.str member) new entries) =
        some new := by
    rw [Entries.get?_put_self]
  rw [List.foldlM_cons, List.foldlM_cons, replaceUnder_eq held,
    replaceUnder_eq newHeld, one, also]
  show members.foldlM (replaceUnder other)
      (Entries.put (.str member) final
        (Entries.put (.str member) new entries)) =
    members.foldlM (replaceUnder replace)
      (Entries.put (.str member) final entries)
  rw [Entries.put_put_text]
  apply foldlM_replaceUnder_congr independent.tail
  rw [partsUnder_put independent]
  exact same

/--
The values of a member may be exchanged before replacing if replacing makes the
same of them: the exchanged value can be put last.
-/
theorem foldlM_replaceUnder_put
    (independent : IndependentMembers members) (isMember : member ∈ members)
    (held : Entries.get? (.str member) entries = some value) {new : Datum}
    (one : outcomeUnder replace entries member value = .ok final)
    (also :
      outcomeUnder other (Entries.put (.str member) new entries) member new =
        .ok final)
    (same : ∀ elsewhere ∈ members, elsewhere ≠ member →
      ∀ part ∈ (holding? entries elsewhere).elim [] Holding.parts,
        other part = replace part) :
    members.foldlM (replaceUnder other)
        (Entries.put (.str member) new entries) =
      members.foldlM (replaceUnder replace) entries := by
  induction members generalizing entries with
  | nil => cases isMember
  | cons first rest ih =>
    have notFirst (text : String) (behind : text ∈ rest) : text ≠ first := by
      rintro rfl
      exact (List.nodup_cons.1 independent.nodup).1 behind
    by_cases here : first = member
    · subst here
      apply foldlM_replaceUnder_put_first independent held one also
      intro part isPart
      rw [partsUnder, List.mem_flatMap] at isPart
      rcases isPart with ⟨elsewhere, behind, isPart⟩
      exact
        same elsewhere (List.mem_cons_of_mem _ behind)
          (notFirst elsewhere behind) part isPart
    · have behind : member ∈ rest :=
        (List.mem_cons.1 isMember).resolve_left fun same => here same.symm
      have noKind (text : String) (isText : text ∈ first :: rest) :
          text ≠ "type" := by
        rintro rfl
        exact independent.noKind isText
      have unmoved :
          holding? (Entries.put (.str member) new entries) first =
            holding? entries first :=
        holding?_put (noKind member isMember) here new
      rw [List.foldlM_cons, List.foldlM_cons, replaceUnder, replaceUnder,
        unmoved]
      cases holds : holding? entries first with
      | none =>
        exact
          ih independent.tail behind held one also fun elsewhere isMember =>
            same elsewhere (List.mem_cons_of_mem _ isMember)
      | some holding =>
        have parts : holding.parts.mapM other = holding.parts.mapM replace := by
          apply mapM_congr
          have atFirst := same first List.mem_cons_self here
          rwa [holds] at atFirst
        simp only [parts]
        cases holding.parts.mapM replace with
        | error fault => rfl
        | ok replaced =>
          have present : Entries.get? (.str first) entries ≠ none :=
            get?_ne_none_of_holding (by simp [holds])
          have stands : Entries.get? (.str member) entries ≠ none := by
            simp [held]
          have kind := noKind first List.mem_cons_self
          have other := notFirst member behind
          show rest.foldlM (replaceUnder _)
              (Entries.put (.str first) (holding.refill replaced)
                (Entries.put (.str member) new entries)) =
            rest.foldlM (replaceUnder replace)
              (Entries.put (.str first) (holding.refill replaced) entries)
          rw [Entries.put_comm_text here present stands]
          apply ih independent.tail behind
          · rw [Entries.get?_put_text, if_neg, held]
            exact fun same => other (Scalar.str.inj same)
          · rw [outcomeUnder_put kind other, one]
          · rw [Entries.put_comm_text other stands present,
              outcomeUnder_put kind other, also]
          · intro elsewhere isMember different part isPart
            rw [holding?_put kind (notFirst elsewhere isMember)] at isPart
            exact
              same elsewhere (List.mem_cons_of_mem _ isMember) different part
                isPart

/-- What stands under a member after all parts have been replaced. -/
theorem exists_outcomeUnder
    {result : Datum} (success : replaceParts replace entries = .ok result)
    (isMember : member ∈ partMembers) (value : Datum) :
    ∃ final, outcomeUnder replace entries member value = .ok final := by
  rw [outcomeUnder]
  cases holds : holding? entries member with
  | none => exact ⟨value, rfl⟩
  | some holding =>
    have each (part : Datum) (isPart : part ∈ holding.parts) :
        ∃ new, replace part = .ok new ∧ True := by
      rcases
        exists_of_replaceParts success
          (mem_parts_of_holding isMember holds isPart) with
        ⟨new, done⟩
      exact ⟨new, done, trivial⟩
    rcases exists_mapM_eq_ok each with ⟨news, done, -⟩
    refine ⟨holding.refill news, ?_⟩
    dsimp only
    rw [done]
    rfl

end Member

/-! ## More definitions -/

/-- Definitions among which every reference leads to what it led to before. -/
def Extends (definitions others : Datum) : Prop :=
  ∀ text target, resolve text definitions = .ok target →
    resolve text others = .ok target

/-- A definition under a new name is added. -/
theorem extends_put
    {definitions : Entries} {name : String}
    (new : Entries.get? (.str name) definitions = none) (added : Datum) :
    Extends (.map definitions)
      (.map (Entries.put (.str name) added definitions)) := by
  intro text target resolved
  rcases resolve_eq_ok_iff.1 resolved with ⟨other, named, found⟩
  refine resolve_eq_ok_iff.2 ⟨other, named, ?_⟩
  rw [definition?, Datum.held?] at found ⊢
  rw [Entries.get?_put_text, if_neg]
  · exact found
  · intro same
    rw [same, new] at found
    cases found

section Inlining

variable {definitions others node result otherResult : Datum}
  {entries : Entries} {limit : Int} {budget : Nat} {chain : List String}

namespace InlinesTo

/-- What a reference is inlined to is what its definition is inlined to. -/
theorem exists_target
    {reference : Datum} (isReference : reference? node = some reference)
    (inlined : InlinesTo definitions node result) :
    ∃ text target, reference = .str text ∧
      resolve text definitions = .ok target ∧
      InlinesTo definitions target result := by
  rcases inlined with ⟨limit, budget, chain, success⟩
  cases budget with
  | zero => cases success
  | succ budget =>
    rw [inlineWithin_of_reference isReference] at success
    rcases exists_of_bind_eq_ok success with
      ⟨⟨name, target⟩, followed, below⟩
    rcases followReference_eq_ok_iff.1 followed with
      ⟨text, isText, named, -, defined⟩
    have found : resolve text definitions = .ok target :=
      resolve_eq_ok_iff.2 ⟨name, named, defined⟩
    exact ⟨text, target, isText, found, limit, budget, _, below⟩

theorem exists_replaceParts
    (noReference : reference? (.map entries) = none)
    (inlined : InlinesTo definitions (.map entries) result) :
    ∃ limit budget chain,
      replaceParts (inlineWithin definitions limit budget chain) entries =
        .ok result := by
  rcases inlined with ⟨limit, budget, chain, success⟩
  cases budget with
  | zero => cases success
  | succ budget =>
    rw [inlineWithin_of_object noReference] at success
    exact ⟨limit, budget, chain, success⟩

theorem eq_of_no_map
    (noMap : ∀ entries, node ≠ .map entries)
    (inlined : InlinesTo definitions node result) : result = node := by
  rcases inlined with ⟨limit, budget, chain, success⟩
  cases budget with
  | zero => cases success
  | succ budget =>
    rw [inlineWithin_of_no_map noMap] at success
    cases success
    rfl

/-- A node is inlined in one way, whatever definitions are added. -/
theorem eq_of_extends
    (extended : Extends definitions others)
    (inlined : InlinesTo definitions node result)
    (otherInlined : InlinesTo others node otherResult) :
    otherResult = result := by
  rcases inlined with ⟨limit, budget, chain, success⟩
  induction success using inlineWithin_induction generalizing otherResult with
  | follow isReference _ found _ _ ih =>
    rcases otherInlined.exists_target isReference with
      ⟨otherText, otherTarget, same, otherFound, otherBelow⟩
    cases same
    cases (extended _ _ found).symm.trans otherFound
    exact ih otherBelow
  | object noReference success replaced =>
    rcases otherInlined.exists_replaceParts noReference with
      ⟨otherLimit, otherBudget, otherChain, otherSuccess⟩
    rw [inlineWithin_of_object noReference] at success
    rw [replaceParts_congr, success] at otherSuccess
    · exact (Except.ok.inj otherSuccess).symm
    · intro part isPart
      rcases replaced.exists_of_part isPart with ⟨one, done, ih⟩
      rcases exists_of_replaceParts otherSuccess isPart with
        ⟨another, alsoDone⟩
      rw [done, alsoDone, ih ⟨_, _, _, alsoDone⟩]
  | value noObject => exact otherInlined.eq_of_no_map noObject

end InlinesTo

end Inlining

/-! ## Objects that differ under one member -/

/-- What inlining makes of the value under a member. -/
def BecomesUnder (definitions : Datum) (entries : Entries) (member : String)
    (value final : Datum) : Prop :=
  match holding? entries member with
  | some holding => ∃ news,
    List.Forall₂ (InlinesTo definitions) holding.parts news ∧
      final = holding.refill news
  | none => final = value

section Objects

variable {definitions others result otherResult value new final : Datum}
  {entries : Entries} {member : String}

theorem becomesUnder_of_outcomeUnder
    {limit : Int} {budget : Nat} {chain : List String}
    (success :
      outcomeUnder (inlineWithin definitions limit budget chain) entries member
          value = .ok final) :
    BecomesUnder definitions entries member value final := by
  rw [outcomeUnder] at success
  rw [BecomesUnder]
  cases holds : holding? entries member with
  | none =>
    rw [holds] at success
    exact (Except.ok.inj success).symm
  | some holding =>
    rw [holds] at success
    rcases exists_of_map_eq_ok success with ⟨news, each, same⟩
    refine ⟨news, ?_, same.symm⟩
    exact
      (mapM_eq_ok_iff.1 each).imp fun _ _ done => ⟨limit, budget, chain, done⟩

/--
An object is inlined to the same in both ways if the values of the member under
which it differs are.
-/
theorem InlinesTo.eq_of_put
    (extended : Extends definitions others) (isMember : member ∈ partMembers)
    (held : Entries.get? (.str member) entries = some value)
    (inside : ∀ final otherFinal,
      BecomesUnder definitions entries member value final →
        BecomesUnder others (Entries.put (.str member) new entries) member new
          otherFinal →
        otherFinal = final)
    (inlined : InlinesTo definitions (.map entries) result)
    (otherInlined :
      InlinesTo others (.map (Entries.put (.str member) new entries))
        otherResult) :
    otherResult = result := by
  have sameReference :
      reference? (.map (Entries.put (.str member) new entries)) =
        reference? (.map entries) := by
    rw [reference?, reference?, Datum.field?, Datum.field?,
      Entries.get?_put_text, if_neg]
    intro same
    rw [← Scalar.str.inj same] at isMember
    revert isMember
    decide
  cases isReference : reference? (.map entries) with
  | some reference =>
    rcases inlined.exists_target isReference with
      ⟨text, target, rfl, found, below⟩
    rcases otherInlined.exists_target (sameReference.trans isReference) with
      ⟨otherText, otherTarget, same, otherFound, otherBelow⟩
    cases same
    cases (extended text target found).symm.trans otherFound
    exact below.eq_of_extends extended otherBelow
  | none =>
    rcases inlined.exists_replaceParts isReference with
      ⟨limit, budget, chain, success⟩
    rcases otherInlined.exists_replaceParts
        (sameReference.trans isReference) with
      ⟨otherLimit, otherBudget, otherChain, otherSuccess⟩
    rcases exists_outcomeUnder success isMember value with ⟨final, one⟩
    rcases exists_outcomeUnder otherSuccess isMember new with
      ⟨otherFinal, another⟩
    cases inside final otherFinal (becomesUnder_of_outcomeUnder one)
      (becomesUnder_of_outcomeUnder another)
    have noKind : member ≠ "type" := by
      rintro rfl
      exact partMembers_independent.noKind isMember
    have same :
        replaceParts (inlineWithin others otherLimit otherBudget otherChain)
            (Entries.put (.str member) new entries) =
          replaceParts (inlineWithin definitions limit budget chain)
            entries := by
      rw [replaceParts_eq, replaceParts_eq,
        foldlM_replaceUnder_put partMembers_independent isMember held one
          another]
      intro elsewhere isElsewhere different part isPart
      cases holds : holding? entries elsewhere with
      | none =>
        rw [holds] at isPart
        cases isPart
      | some holding =>
        rw [holds] at isPart
        have alsoHolds :=
          (holding?_put noKind different new).trans holds
        rcases exists_of_replaceParts success
            (mem_parts_of_holding isElsewhere holds isPart) with
          ⟨there, done⟩
        rcases exists_of_replaceParts otherSuccess
            (mem_parts_of_holding isElsewhere alsoHolds isPart) with
          ⟨alsoThere, alsoDone⟩
        have inlinedThere : InlinesTo definitions part there :=
          ⟨_, _, _, done⟩
        rw [done, alsoDone,
          inlinedThere.eq_of_extends extended ⟨_, _, _, alsoDone⟩]
    rw [same, success] at otherSuccess
    cases otherSuccess
    rfl

end Objects

/-! ## Places of parts -/

/--
Schemas of which the second has another value at one place of the first.  A
place is reached over properties, over the branches of alternatives and over
the items of arrays that are entered.
-/
inductive Exchanged (enters : Entries → Prop) (part other : Datum) :
    Datum → Datum → Prop where
  | here : Exchanged enters part other part other
  | property {entries before after : Entries} {key : Scalar}
      {node new : Datum}
      (held :
        Entries.get? (.str "properties") entries =
          some (.map (before ++ (key, node) :: after)))
      (inside : Exchanged enters part other node new) :
      Exchanged enters part other (.map entries)
        (.map
          (Entries.put (.str "properties")
            (.map (before ++ (key, new) :: after)) entries))
  | branch {entries : Entries} {before after : List Datum}
      {node new : Datum}
      (held :
        Entries.get? (.str "oneOf") entries =
          some (.list (before ++ node :: after)))
      (inside : Exchanged enters part other node new) :
      Exchanged enters part other (.map entries)
        (.map
          (Entries.put (.str "oneOf") (.list (before ++ new :: after))
            entries))
  | items {entries : Entries} {node new : Datum} (entered : enters entries)
      (held : Entries.get? (.str "items") entries = some node)
      (inside : Exchanged enters part other node new) :
      Exchanged enters part other (.map entries)
        (.map (Entries.put (.str "items") new entries))

section Places

variable {definitions others node new : Datum} {entries : Entries}

/-- A list becomes the same in both ways if all parts do. -/
theorem eq_of_forall₂
    {becomes alsoBecomes : Datum → Datum → Prop}
    (same : ∀ part one another,
      becomes part one → alsoBecomes part another → another = one)
    {nodes news otherNews : List Datum}
    (each : List.Forall₂ becomes nodes news)
    (otherEach : List.Forall₂ alsoBecomes nodes otherNews) :
    otherNews = news := by
  induction each generalizing otherNews with
  | nil =>
    cases otherEach
    rfl
  | cons here _ ih =>
    cases otherEach with
    | cons alsoHere rest => rw [same _ _ _ here alsoHere, ih rest]

/-- Lists that differ at one position become the same if all parts do. -/
theorem eq_of_forall₂_exchanged
    {becomes alsoBecomes : Datum → Datum → Prop}
    (same : ∀ part one another,
      becomes part one → alsoBecomes part another → another = one)
    (inside : ∀ one another,
      becomes node one → alsoBecomes new another → another = one)
    {before after news otherNews : List Datum}
    (each : List.Forall₂ becomes (before ++ node :: after) news)
    (otherEach : List.Forall₂ alsoBecomes (before ++ new :: after) otherNews) :
    otherNews = news := by
  induction before generalizing news otherNews with
  | nil =>
    cases each with
    | cons here behind =>
      cases otherEach with
      | cons alsoHere alsoBehind =>
        rw [inside _ _ here alsoHere, eq_of_forall₂ same behind alsoBehind]
  | cons first before ih =>
    cases each with
    | cons here behind =>
      cases otherEach with
      | cons alsoHere alsoBehind =>
        rw [same _ _ _ here alsoHere, ih behind alsoBehind]

/-- Refilling properties reads their keys only. -/
theorem refill_properties_congr
    {named otherNamed : Entries}
    (keys : otherNamed.map Prod.fst = named.map Prod.fst)
    (news : List Datum) :
    (Holding.properties otherNamed).refill news =
      (Holding.properties named).refill news := by
  have byKeys (entries : Entries) :
      entries.zipWith (fun entry part => (entry.1, part)) news =
        (entries.map Prod.fst).zip news := by
    rw [List.zip, List.zipWith_map_left]
  rw [Holding.refill, Holding.refill, byKeys, byKeys, keys]

/-- What becomes of the items of an array is what they are inlined to. -/
theorem inlinesTo_of_becomesUnder_items
    (isArray : describesArray entries = true)
    (held : Entries.get? (.str "items") entries = some node) {final : Datum}
    (becomes : BecomesUnder definitions entries "items" node final) :
    InlinesTo definitions node final := by
  rw [BecomesUnder, holding?_items, isArray, held] at becomes
  cases node with
  | map inner =>
    rcases becomes with ⟨news, each, rfl⟩
    cases each with
    | cons here none =>
      cases none
      exact here
  | _ =>
    subst becomes
    exact inlinesTo_of_no_map nofun

/--
If a part and the value in its place are inlined to the same, so are the
schemas that differ there.
-/
theorem Exchanged.eq_of_inlinesTo
    {part other : Datum} (extended : Extends definitions others)
    (exchanged :
      Exchanged (fun entries => describesArray entries = true) part other node
        new)
    (same : ∀ result otherResult, InlinesTo definitions part result →
      InlinesTo others other otherResult → otherResult = result)
    {result otherResult : Datum} (inlined : InlinesTo definitions node result)
    (otherInlined : InlinesTo others new otherResult) :
    otherResult = result := by
  have sides (value one another : Datum)
      (left : InlinesTo definitions value one)
      (right : InlinesTo others value another) : another = one :=
    left.eq_of_extends extended right
  induction exchanged generalizing result otherResult with
  | here => exact same result otherResult inlined otherInlined
  | @property entries before after key node new held _ ih =>
    refine
      inlined.eq_of_put extended (by decide) held ?_ otherInlined
    intro final otherFinal becomes otherBecomes
    rw [BecomesUnder, holding?_properties, held] at becomes
    rw [BecomesUnder, holding?_properties, Entries.get?_put_self] at otherBecomes
    rcases becomes with ⟨news, each, rfl⟩
    rcases otherBecomes with ⟨otherNews, otherEach, rfl⟩
    rw [Holding.parts, List.map_append, List.map_cons] at each otherEach
    rw [eq_of_forall₂_exchanged sides (fun _ _ => ih) each otherEach]
    apply refill_properties_congr
    rw [List.map_append, List.map_append, List.map_cons, List.map_cons]
  | @branch entries before after node new held _ ih =>
    refine
      inlined.eq_of_put extended (by decide) held ?_ otherInlined
    intro final otherFinal becomes otherBecomes
    have isComposite : "oneOf" ∈ compositeMembers := by decide
    rw [BecomesUnder, holding?_of_composite _ isComposite, held] at becomes
    rw [BecomesUnder, holding?_of_composite _ isComposite,
      Entries.get?_put_self] at otherBecomes
    rcases becomes with ⟨news, each, rfl⟩
    rcases otherBecomes with ⟨otherNews, otherEach, rfl⟩
    rw [eq_of_forall₂_exchanged sides (fun _ _ => ih) each otherEach]
    rfl
  | @items entries node new entered held _ ih =>
    refine
      inlined.eq_of_put extended (by decide) held ?_ otherInlined
    intro final otherFinal becomes otherBecomes
    have alsoEntered :
        describesArray (Entries.put (.str "items") new entries) = true := by
      rw [describesArray, Entries.get?_put_of_ne (by decide)]
      exact entered
    have alsoHeld :
        Entries.get? (.str "items") (Entries.put (.str "items") new entries) =
          some new := by
      rw [Entries.get?_put_self]
    exact
      ih (inlinesTo_of_becomesUnder_items entered held becomes)
        (inlinesTo_of_becomesUnder_items alsoEntered alsoHeld otherBecomes)

/-- A part may be moved to a definition of a new name. -/
theorem Exchanged.eq_of_inlinesTo_reference
    {part : Datum} {definitions : Entries} {text name : String}
    (named : referenceName text = .ok name)
    (isNew : Entries.get? (.str name) definitions = none)
    (exchanged :
      Exchanged (fun entries => describesArray entries = true) part
        (.object [(referenceMember, .str text)]) node new)
    {result otherResult : Datum}
    (inlined : InlinesTo (.map definitions) node result)
    (otherInlined :
      InlinesTo (.map (Entries.put (.str name) part definitions)) new
        otherResult) :
    otherResult = result := by
  have extended := extends_put isNew part
  refine exchanged.eq_of_inlinesTo extended ?_ inlined otherInlined
  intro one another isPart isReference
  have leads :
      resolve text (.map (Entries.put (.str name) part definitions)) =
        .ok part := by
    refine resolve_eq_ok_iff.2 ⟨name, named, ?_⟩
    rw [definition?, Datum.held?, Entries.get?_put_self]
  rcases isReference.exists_target rfl with
    ⟨otherText, target, same, found, below⟩
  cases same
  cases leads.symm.trans found
  exact isPart.eq_of_extends extended below

/-! ## Places in schemas without references -/

/-- A part of what is inlined is inlined. -/
theorem Inlined.exists_part
    {budget : Nat} (inlined : Inlined budget (.map entries)) {part : Datum}
    (isPart : part ∈ parts entries) : ∃ less, Inlined less part := by
  cases inlined with
  | value noObject => exact (noObject entries rfl).elim
  | object _ each => exact ⟨_, each part isPart⟩

/-- At no place of an inlined schema is a reference. -/
theorem Inlined.reference?_eq_none_of_exchanged
    {budget : Nat} {part other : Datum} (inlined : Inlined budget node)
    (exchanged :
      Exchanged (fun entries => describesArray entries = true) part other node
        new) :
    reference? part = none := by
  induction exchanged generalizing budget with
  | here =>
    cases inlined with
    | value noObject => exact reference?_eq_none_of_no_map noObject
    | object noReference => exact noReference
  | @property entries before after key node _ held _ ih =>
    have isPart :
        node ∈ (before ++ (key, node) :: after).map Prod.snd := by
      simp
    rcases inlined.exists_part (mem_parts_of_property held isPart) with
      ⟨less, below⟩
    exact ih below
  | @branch entries before after node _ held _ ih =>
    have isPart : node ∈ before ++ node :: after :=
      List.mem_append_right before List.mem_cons_self
    rcases inlined.exists_part
        (mem_parts_of_branch (by decide) held isPart) with
      ⟨less, below⟩
    exact ih below
  | @items entries node _ entered held inside ih =>
    by_cases isObject : ∃ inner, node = .map inner
    · rcases isObject with ⟨inner, rfl⟩
      rcases inlined.exists_part (mem_parts_of_items entered held) with
        ⟨less, below⟩
      exact ih below
    · rw [not_exists] at isObject
      have alone : Inlined 1 node := .value isObject
      exact ih alone

end Places

end ApiAtlas.Schema
