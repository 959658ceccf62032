import ApiAtlas.Proofs.Yaml.Denotation
import ApiAtlas.Yaml.Value

/-!
# Forms that are complete

The forms are made in rounds.  What carries the result is an invariant of one
round: a form is complete, or its node still waits for its parts, and a node
that waits is a container.  The parts come before their container, so that the
numbers that wait become smaller from round to round, and none waits in the
end.
-/

namespace ApiAtlas.Yaml

/-! ## Nodes that denote values -/

section Vertex

variable {graph : Graph} {number : Nat} {tag : Tag}

theorem tag_of_here
    {content : Content} (here : graph[number]? = some ⟨tag, content⟩) :
    graph.tag number = tag := by
  rw [Graph.tag, here]
  rfl

theorem content_of_here
    {content : Content} (here : graph[number]? = some ⟨tag, content⟩) :
    graph.content number = content := by
  rw [Graph.content, here]
  rfl

/-- The text of a scalar. -/
theorem text?_of_here
    {text : String} (here : graph[number]? = some ⟨tag, .scalar text⟩) :
    graph.text? number = some text := by
  rw [Graph.text?, Graph.textWithin?, content_of_here here]

/-- The key that a scalar with a value is. -/
theorem key_of_here
    {text : String} {value : Scalar}
    (here : graph[number]? = some ⟨tag, .scalar text⟩)
    (same : scalarValue tag text = .ok value) :
    graph.key number =
      .ok ⟨value, if tag = .float && isNoNumber text then none
        else some number⟩ := by
  have noPairs : graph.pairs? number = none := by
    rw [Graph.pairs?, content_of_here here]
  rw [Graph.key, tag_of_here here, text?_of_here here, noPairs]
  simp only [Option.isSome_none, Bool.and_false, Bool.false_eq_true, if_false,
    same]
  rfl

/-- Whether a node is a container that stands for a value. -/
def IsContainer (graph : Graph) (number : Nat) : Prop :=
  (Form.begun? (graph.tag number)).isSome ∧
    ∃ value, Denotes graph number value

theorem not_isContainer_of_name
    {name : String} (isName : graph[number]? = some ⟨.text, .scalar name⟩) :
    ¬IsContainer graph number := by
  rintro ⟨isBegun, -⟩
  rw [tag_of_here isName] at isBegun
  cases isBegun

end Vertex

theorem DenotesPairs.tag_key
    {graph : Graph} {bound : Nat} {pairs : List (Nat × Nat)}
    {earlier fields : Fields}
    (denotes : DenotesPairs graph bound pairs earlier fields) :
    ∀ pair ∈ pairs, graph.tag pair.1 = .text := by
  induction pairs generalizing earlier with
  | nil => exact List.forall_mem_nil _
  | cons pair rest ih =>
    cases denotes with
    | cons isName keyBelow below first others =>
      exact List.forall_mem_cons.2 ⟨tag_of_here isName, ih others⟩

/-- A mapping whose keys are names has nothing to merge. -/
theorem merge_of_here
    {graph : Graph} {bound number : Nat} {pairs : List (Nat × Nat)}
    {earlier fields : Fields}
    (here : graph[number]? = some ⟨.mapping, .mapping pairs⟩)
    (parts : DenotesPairs graph bound pairs earlier fields) :
    graph.merge number = some graph := by
  have plain :
      (pairs.any fun pair => graph.isMerge pair || graph.isValue pair) =
        false := by
    rw [List.any_eq_false]
    intro pair inside
    rw [Graph.isMerge, Graph.isValue, parts.tag_key pair inside]
    decide
  rw [Graph.merge, Graph.pairs?, content_of_here here]
  simp only [Option.bind_eq_bind, Option.bind_some, plain, Bool.false_eq_true,
    if_false]
  rfl

/-! ## Forms of nodes -/

/-- The members of a mapping whose keys are names, put after earlier ones. -/
def Graph.membersAfter (graph : Graph) (earlier : Members)
    (pairs : List (Nat × Nat)) : Members :=
  pairs.foldl
    (fun members pair =>
      Members.put
        ⟨.str ((graph.text? pair.1).getD ""), some pair.1⟩ pair.2 members)
    earlier

theorem membersAfter_cons
    {graph : Graph} {key : Nat} {name : String}
    (isName : graph[key]? = some ⟨.text, .scalar name⟩) (earlier : Members)
    (part : Nat) (rest : List (Nat × Nat)) :
    graph.membersAfter earlier ((key, part) :: rest) =
      graph.membersAfter
        (Members.put ⟨.str name, some key⟩ part earlier) rest := by
  rw [Graph.membersAfter, List.foldl_cons, text?_of_here isName]
  rfl

theorem mem_put
    {key : Key} {part : Nat} {members : Members} {member : Key × Nat}
    (inside : member ∈ Members.put key part members) :
    member.2 = part ∨ member ∈ members := by
  induction members with
  | nil =>
    rw [Members.put, List.mem_singleton] at inside
    exact Or.inl (congrArg Prod.snd inside)
  | cons first rest ih =>
    rw [Members.put] at inside
    split at inside
    · rcases List.mem_cons.1 inside with rfl | inside
      · exact Or.inl rfl
      · exact Or.inr (List.mem_cons_of_mem _ inside)
    · rcases List.mem_cons.1 inside with rfl | inside
      · exact Or.inr List.mem_cons_self
      · exact (ih inside).imp_right (List.mem_cons_of_mem _)

/-- The parts of members are those of the pairs. -/
theorem exists_pair_of_mem_membersAfter
    {graph : Graph} {pairs : List (Nat × Nat)} {earlier : Members}
    {member : Key × Nat}
    (inside : member ∈ graph.membersAfter earlier pairs) :
    member ∈ earlier ∨ ∃ pair ∈ pairs, member.2 = pair.2 := by
  induction pairs generalizing earlier with
  | nil => exact Or.inl inside
  | cons pair rest ih =>
    rcases ih inside with inside | ⟨other, inside, same⟩
    · rcases mem_put inside with same | inside
      · exact Or.inr ⟨pair, List.mem_cons_self, same⟩
      · exact Or.inl inside
    · exact Or.inr ⟨other, List.mem_cons_of_mem _ inside, same⟩

theorem DenotesItems.item_lt
    {graph : Graph} {bound : Nat} {items : List Nat} {values : List Datum}
    (denotes : DenotesItems graph bound items values) :
    ∀ item ∈ items, item < bound := by
  induction items generalizing values with
  | nil => exact List.forall_mem_nil _
  | cons item rest ih =>
    cases denotes with
    | cons below first others => exact List.forall_mem_cons.2 ⟨below, ih others⟩

theorem DenotesPairs.part_lt
    {graph : Graph} {bound : Nat} {pairs : List (Nat × Nat)}
    {earlier fields : Fields}
    (denotes : DenotesPairs graph bound pairs earlier fields) :
    ∀ pair ∈ pairs, pair.2 < bound := by
  induction pairs generalizing earlier with
  | nil => exact List.forall_mem_nil _
  | cons pair rest ih =>
    cases denotes with
    | cons isName keyBelow below first others =>
      exact List.forall_mem_cons.2 ⟨below, ih others⟩

/-- Whether the form of a node is there, be it complete or not. -/
def IsBegun (forms : Forms) (number : Nat) : Prop :=
  ∃ form, forms[number]? = some (some form)

/--
Whether the form of a node is what it has to be, with parts that come before
the node and are begun.
-/
inductive IsComplete (graph : Graph) (forms : Forms) (number : Nat) :
    Form → Prop
  | scalar {tag : Tag} {text : String} {key : Key}
      (here : graph[number]? = some ⟨tag, .scalar text⟩)
      (same : graph.key number = .ok key) :
      IsComplete graph forms number (.scalar key)
  | list {items : List Nat}
      (here : graph[number]? = some ⟨.sequence, .sequence items⟩)
      (below : ∀ item ∈ items, item < number)
      (begun : ∀ item ∈ items, IsBegun forms item) :
      IsComplete graph forms number (.list items)
  | map {pairs : List (Nat × Nat)}
      (here : graph[number]? = some ⟨.mapping, .mapping pairs⟩)
      (below : ∀ pair ∈ pairs, pair.2 < number)
      (begun : ∀ pair ∈ pairs, IsBegun forms pair.2) :
      IsComplete graph forms number (.map (graph.membersAfter [] pairs))

/-- Whether forms have been begun since, with none lost. -/
def Keeps (before after : Forms) : Prop :=
  ∀ number, IsBegun before number → IsBegun after number

theorem Keeps.refl (forms : Forms) : Keeps forms forms :=
  fun _ isBegun => isBegun

theorem Keeps.trans
    {before between after : Forms} (first : Keeps before between)
    (second : Keeps between after) : Keeps before after :=
  fun number isBegun => second number (first number isBegun)

theorem IsComplete.keep
    {graph : Graph} {before after : Forms} {number : Nat} {form : Form}
    (isComplete : IsComplete graph before number form)
    (keeps : Keeps before after) : IsComplete graph after number form := by
  cases isComplete with
  | scalar here same => exact .scalar here same
  | list here below begun =>
    exact .list here below fun item inside => keeps item (begun item inside)
  | map here below begun =>
    exact .map here below fun pair inside => keeps pair.2 (begun pair inside)

/-- Whether all forms that are there are complete. -/
def AreComplete (graph : Graph) (forms : Forms) : Prop :=
  ∀ number form, forms[number]? = some (some form) →
    IsComplete graph forms number form

theorem IsComplete.part_lt
    {graph : Graph} {forms : Forms} {number : Nat} {form : Form}
    (isComplete : IsComplete graph forms number form) :
    ∀ part ∈ form.parts, part < number := by
  cases isComplete with
  | scalar here same => exact List.forall_mem_nil _
  | list here below begun => exact below
  | map here below begun =>
    intro part inside
    rcases List.mem_map.1 inside with ⟨member, isMember, rfl⟩
    rcases exists_pair_of_mem_membersAfter isMember with
      none | ⟨pair, isPair, same⟩
    · cases none
    · rw [same]
      exact below pair isPair

section SetForm

variable {forms : Forms} {number : Nat}

theorem getElem?_set (form : Form) (inside : number < forms.size) :
    (forms.setIfInBounds number (some form))[number]? = some (some form) := by
  rw [Array.getElem?_setIfInBounds_self_of_lt inside]

theorem keeps_set (form : Form) :
    Keeps forms (forms.setIfInBounds number (some form)) := by
  rintro other ⟨found, here⟩
  rw [IsBegun, Array.getElem?_setIfInBounds]
  split
  · next same =>
    subst same
    exact ⟨form, if_pos (Array.getElem?_eq_some_iff.1 here).1⟩
  · exact ⟨found, here⟩

/-- A form in place of another is the new one or one of the old ones. -/
theorem getElem?_set_cases
    {form found : Form} {other : Nat}
    (here :
      (forms.setIfInBounds number (some form))[other]? = some (some found)) :
    (other = number ∧ found = form) ∨
      (other ≠ number ∧ forms[other]? = some (some found)) := by
  rw [Array.getElem?_setIfInBounds] at here
  split at here
  · next same =>
    split at here
    · cases here
      exact Or.inl ⟨same.symm, rfl⟩
    · cases here
  · next differs => exact Or.inr ⟨Ne.symm differs, here⟩

end SetForm

/-! ## Making forms -/

open Make

section Make

variable {graph : Graph} {bound number : Nat} {pending : List Nat}
variable {state : Making} {value : Datum}

/--
What is known while a round goes on: the nodes that still wait in it are
pending, those that wait for the next one are below a bound.
-/
structure Fits (graph : Graph) (bound : Nat) (pending : List Nat)
    (state : Making) : Prop where
  graph_eq : state.graph = graph
  size_eq : state.forms.size = graph.size
  below : ∀ other ∈ state.waiting, other < bound
  waits : ∀ other, other ∈ pending ∨ other ∈ state.waiting →
    IsContainer graph other
  made : ∀ other form, state.forms[other]? = some (some form) →
    (other ∈ pending ∨ other ∈ state.waiting) ∨
      IsComplete graph state.forms other form

/-- A node may wait for the next round. -/
theorem Fits.wait
    (fits : Fits graph bound pending state)
    (isContainer : IsContainer graph number) (below : number < bound) :
    Fits graph bound pending
      { state with waiting := number :: state.waiting } where
  graph_eq := fits.graph_eq
  size_eq := fits.size_eq
  below := List.forall_mem_cons.2 ⟨below, fits.below⟩
  waits := by
    rintro other (inside | inside)
    · exact fits.waits other (Or.inl inside)
    · rcases List.mem_cons.1 inside with rfl | inside
      · exact isContainer
      · exact fits.waits other (Or.inr inside)
  made := fun other form here =>
    (fits.made other form here).imp_left
      (Or.imp_right (List.mem_cons_of_mem _))

/-- A form is set that is complete, or whose node waits. -/
theorem Fits.set
    {others : List Nat} {form : Form}
    (fits : Fits graph bound pending state)
    (fewer : others ⊆ pending)
    (finished : ∀ other ∈ pending, other = number ∨ other ∈ others)
    (fate :
      (number ∈ others ∨ number ∈ state.waiting) ∨
        IsComplete graph state.forms number form) :
    Fits graph bound others
      { state with
        forms := state.forms.setIfInBounds number (some form) } where
  graph_eq := fits.graph_eq
  size_eq := Array.size_setIfInBounds.trans fits.size_eq
  below := fits.below
  waits := fun other inside =>
    fits.waits other (inside.imp_left fun inside => fewer inside)
  made := by
    intro other found here
    rcases getElem?_set_cases here with ⟨rfl, rfl⟩ | ⟨differs, here⟩
    · exact fate.imp_right fun isComplete => isComplete.keep (keeps_set _)
    · exact
        (fits.made other found here).imp
          (Or.imp_left fun inside =>
            (finished other inside).resolve_left differs)
          fun isComplete => isComplete.keep (keeps_set _)

theorem get_eq (state : Making) :
    (get : Make Making) state = .ok (state, state) :=
  rfl

/-- A form that is there is kept. -/
theorem formOf_of_begun
    {form : Form} (isBegun : state.forms[number]? = some (some form)) :
    formOf number state = .ok (form, state) := by
  rw [formOf, bind_of_ok (get_eq state), isBegun]
  rfl

/-- A form that is not there is begun, if it is of a container. -/
theorem formOf_container
    {form : Form} (fresh : state.forms[number]?.join = none)
    (isBegun : Form.begun? (state.graph.tag number) = some form) :
    formOf number state =
      .ok (form,
        ⟨state.graph, state.forms.setIfInBounds number (some form),
          number :: state.waiting⟩) := by
  rw [formOf, bind_of_ok (get_eq state), fresh]
  exact (bind_of_ok (get_eq state)).trans (by rw [isBegun]; rfl)

/-- The form of a scalar is made at once. -/
theorem formOf_scalar
    {key : Key} (fresh : state.forms[number]?.join = none)
    (isPlain : Form.begun? (state.graph.tag number) = none)
    (same : state.graph.key number = .ok key) :
    formOf number state =
      .ok (.scalar key,
        { state with
          forms := state.forms.setIfInBounds number (some (.scalar key)) }) := by
  rw [formOf, bind_of_ok (get_eq state), fresh]
  refine (bind_of_ok (get_eq state)).trans ?_
  rw [isPlain]
  exact (bind_of_ok (get_eq state)).trans (by rw [same]; rfl)

theorem Fits.container
    {form : Form} (fits : Fits graph bound pending state)
    (fresh : state.forms[number]?.join = none)
    (isBegun : Form.begun? (graph.tag number) = some form)
    (denotes : Denotes graph number value) (below : number < bound) :
    ∃ form next, formOf number state = .ok (form, next) ∧
      Fits graph bound pending next ∧ Keeps state.forms next.forms ∧
      next.forms[number]? = some (some form) := by
  have inside : number < state.forms.size := fits.size_eq ▸ denotes.lt_size
  have isContainer : IsContainer graph number :=
    ⟨by rw [isBegun]; rfl, value, denotes⟩
  rw [← fits.graph_eq] at isBegun
  exact
    ⟨form, _, formOf_container fresh isBegun,
      (fits.wait isContainer below).set (List.Subset.refl _)
        (fun other inside => Or.inr inside)
        (Or.inl (Or.inr List.mem_cons_self)),
      keeps_set form, getElem?_set form inside⟩

/-- The form of a node that denotes a value is there, or it is begun. -/
theorem Fits.form
    (fits : Fits graph bound pending state)
    (denotes : Denotes graph number value) (below : number < bound) :
    ∃ form next, formOf number state = .ok (form, next) ∧
      Fits graph bound pending next ∧ Keeps state.forms next.forms ∧
      next.forms[number]? = some (some form) := by
  cases found : state.forms[number]?.join with
  | some form =>
    have there := Option.join_eq_some_iff.1 found
    exact ⟨form, state, formOf_of_begun there, fits, .refl _, there⟩
  | none =>
    cases denotes with
    | list here parts =>
      exact
        fits.container found (congrArg Form.begun? (tag_of_here here))
          (.list here parts) below
    | object here parts =>
      exact
        fits.container found (congrArg Form.begun? (tag_of_here here))
          (.object here parts) below
    | scalar here isPlain same =>
      have inside : number < state.forms.size :=
        fits.size_eq ▸ lt_size_of_here here
      have key := key_of_here here same
      rw [← tag_of_here here, ← fits.graph_eq] at isPlain
      exact
        ⟨_, _, formOf_scalar found isPlain (fits.graph_eq ▸ key),
          fits.set (List.Subset.refl _) (fun other inside => Or.inr inside)
            (Or.inr (.scalar here key)),
          keeps_set _, getElem?_set _ inside⟩

/-- The key that a name is. -/
theorem Fits.key
    {name : String} (fits : Fits graph bound pending state)
    (isName : graph[number]? = some ⟨.text, .scalar name⟩)
    (below : number < bound) :
    ∃ next, keyOf number state = .ok (⟨.str name, some number⟩, next) ∧
      Fits graph bound pending next ∧ Keeps state.forms next.forms := by
  have value : scalarValue .text name = .ok (.str name) := rfl
  rcases fits.form (.scalar isName rfl value) below with
    ⟨form, next, found, fits, keeps, there⟩
  have isComplete : IsComplete graph next.forms number form :=
    (fits.made number form there).resolve_left fun inside =>
      not_isContainer_of_name isName (fits.waits number inside)
  refine ⟨next, ?_, fits, keeps⟩
  rw [keyOf, bind_of_ok found]
  cases isComplete with
  | scalar here same =>
    cases same.symm.trans (key_of_here isName value)
    rfl
  | list here below begun => cases here.symm.trans isName
  | map here below begun => cases here.symm.trans isName

/-- All items of a list are begun. -/
theorem Fits.items
    {items : List Nat} {values : List Datum} (atMost : number ≤ bound) :
    DenotesItems graph number items values → ∀ {state : Making},
      Fits graph bound pending state →
      ∃ next,
        (items.forM fun item => do let _ ← formOf item : Make Unit) state =
          .ok ((), next) ∧
        Fits graph bound pending next ∧ Keeps state.forms next.forms ∧
        ∀ item ∈ items, IsBegun next.forms item
  | .nil _, state, fits => ⟨state, rfl, fits, .refl _, List.forall_mem_nil _⟩
  | .cons below first others, state, fits => by
    rcases fits.form first (below.trans_le atMost) with
      ⟨form, between, found, fits, keeps, there⟩
    rcases Fits.items atMost others fits with
      ⟨next, run, fits, further, begun⟩
    refine
      ⟨next, ?_, fits, keeps.trans further,
        List.forall_mem_cons.2 ⟨further _ ⟨form, there⟩, begun⟩⟩
    exact (bind_of_ok ((bind_of_ok found).trans rfl)).trans run

/-- All members of an object are begun, and their names are its keys. -/
theorem Fits.members
    {pairs : List (Nat × Nat)} {earlier fields : Fields}
    (atMost : number ≤ bound) :
    DenotesPairs graph number pairs earlier fields →
      ∀ {state : Making} (members : Members),
      Fits graph bound pending state →
      ∃ next,
        (pairs.foldlM
            (fun members pair => do
              let key ← keyOf pair.1
              let _ ← formOf pair.2
              return Members.put key pair.2 members)
            members : Make Members) state =
          .ok (graph.membersAfter members pairs, next) ∧
        Fits graph bound pending next ∧ Keeps state.forms next.forms ∧
        ∀ pair ∈ pairs, IsBegun next.forms pair.2
  | .nil _ _, state, members, fits =>
    ⟨state, rfl, fits, .refl _, List.forall_mem_nil _⟩
  | .cons isName keyBelow below first others, state, members, fits => by
    rcases fits.key isName (keyBelow.trans_le atMost) with
      ⟨named, foundKey, fits, keepsKey⟩
    rcases fits.form first (below.trans_le atMost) with
      ⟨form, between, found, fits, keeps, there⟩
    rcases Fits.members atMost others _ fits with
      ⟨next, run, fits, further, begun⟩
    refine
      ⟨next, ?_, fits, (keepsKey.trans keeps).trans further,
        List.forall_mem_cons.2 ⟨further _ ⟨form, there⟩, begun⟩⟩
    rw [List.foldlM_cons, membersAfter_cons isName, ← run]
    exact bind_of_ok ((bind_of_ok foundKey).trans (bind_of_ok found))

/-- A form that has its parts is set, and its node waits no longer. -/
theorem Fits.finish
    {form : Form} (fits : Fits graph bound (number :: pending) state)
    (isComplete : IsComplete graph state.forms number form) :
    Fits graph bound pending
      { state with
        forms := state.forms.setIfInBounds number (some form) } :=
  fits.set (List.subset_cons_self _ _) (fun _ inside => List.mem_cons.1 inside)
    (Or.inr isComplete)

theorem complete_list
    {items : List Nat} {next : Making}
    (here : state.graph[number]? = some ⟨.sequence, .sequence items⟩)
    (run :
      (items.forM fun item => do let _ ← formOf item : Make Unit) state =
        .ok ((), next)) :
    complete number state =
      .ok ((),
        { next with
          forms := next.forms.setIfInBounds number (some (.list items)) }) := by
  have found : itemsOf number state = .ok (items, next) := by
    rw [itemsOf, bind_of_ok (get_eq state), content_of_here here]
    exact bind_of_ok run
  rw [complete, bind_of_ok (get_eq state), tag_of_here here]
  exact bind_of_ok found

theorem complete_map
    {pairs : List (Nat × Nat)} {members : Members} {next : Making}
    (here : state.graph[number]? = some ⟨.mapping, .mapping pairs⟩)
    (merged : state.graph.merge number = some state.graph)
    (run :
      (pairs.foldlM
          (fun members pair => do
            let key ← keyOf pair.1
            let _ ← formOf pair.2
            return Members.put key pair.2 members)
          [] : Make Members) state =
        .ok (members, next)) :
    complete number state =
      .ok ((),
        { next with
          forms := next.forms.setIfInBounds number (some (.map members)) }) := by
  have found : membersOf number state = .ok (members, next) := by
    have pairs : state.graph.pairs? number = some pairs := by
      rw [Graph.pairs?, content_of_here here]
    rw [membersOf, bind_of_ok (get_eq state), merged]
    refine (bind_of_ok rfl).trans ?_
    rw [pairs]
    exact run
  rw [complete, bind_of_ok (get_eq state), tag_of_here here]
  exact bind_of_ok found

/-- A container that waits gets its parts. -/
theorem Fits.completed
    (fits : Fits graph bound (number :: pending) state)
    (atMost : number ≤ bound) :
    ∃ next, complete number state = .ok ((), next) ∧
      Fits graph bound pending next ∧ Keeps state.forms next.forms := by
  rcases fits.waits number (Or.inl List.mem_cons_self) with
    ⟨isBegun, value, denotes⟩
  cases denotes with
  | scalar here isPlain same =>
    rw [tag_of_here here, isPlain] at isBegun
    cases isBegun
  | list here parts =>
    rcases fits.items atMost parts with ⟨next, run, fitsNext, keeps, begun⟩
    exact
      ⟨_, complete_list (fits.graph_eq ▸ here) run,
        fitsNext.finish (.list here parts.item_lt begun),
        keeps.trans (keeps_set _)⟩
  | object here parts =>
    rcases fits.members atMost parts [] with ⟨next, run, fitsNext, keeps, begun⟩
    exact
      ⟨_,
        complete_map (fits.graph_eq ▸ here)
          (fits.graph_eq ▸ merge_of_here here parts) run,
        fitsNext.finish (.map here parts.part_lt begun),
        keeps.trans (keeps_set _)⟩

/-- All containers that are pending get their parts. -/
theorem Fits.completedEach
    (fits : Fits graph bound pending state)
    (atMost : ∀ number ∈ pending, number ≤ bound) :
    ∃ next, pending.forM complete state = .ok ((), next) ∧
      Fits graph bound [] next ∧ Keeps state.forms next.forms := by
  induction pending generalizing state with
  | nil => exact ⟨state, rfl, fits, .refl _⟩
  | cons number rest ih =>
    rw [List.forall_mem_cons] at atMost
    rcases fits.completed atMost.1 with ⟨between, first, fits, keeps⟩
    rcases ih fits atMost.2 with ⟨next, run, fits, further⟩
    exact ⟨next, (bind_of_ok first).trans run, fits, keeps.trans further⟩

/-- The nodes that wait for the next round are pending in it. -/
theorem Fits.emptied
    (fits : Fits graph bound [] state) (rounds : Nat) :
    Fits graph rounds state.waiting.reverse { state with waiting := [] } where
  graph_eq := fits.graph_eq
  size_eq := fits.size_eq
  below := List.forall_mem_nil _
  waits := by
    rintro other (inside | inside)
    · exact fits.waits other (Or.inr (List.mem_reverse.1 inside))
    · cases inside
  made := fun other form here =>
    (fits.made other form here).imp_left fun inside =>
      Or.inl (List.mem_reverse.2 (inside.resolve_left List.not_mem_nil))

theorem completeAll_nil
    (rounds : Nat) (noneWaits : state.waiting = []) :
    completeAll (rounds + 1) state = .ok ((), state) := by
  rw [completeAll, bind_of_ok (get_eq state), noneWaits]
  rfl

theorem completeAll_cons
    {rounds first : Nat} {rest : List Nat} {between : Making}
    (waiting : state.waiting = first :: rest)
    (each :
      state.waiting.reverse.forM complete { state with waiting := [] } =
        .ok ((), between)) :
    completeAll (rounds + 1) state = completeAll rounds between := by
  rw [waiting] at each
  rw [completeAll, bind_of_ok (get_eq state), waiting, List.isEmpty_cons,
    if_neg Bool.false_ne_true]
  exact (bind_of_ok rfl).trans (bind_of_ok each)

/--
Where all nodes that wait are below a number, none waits after that number of
rounds.
-/
theorem Fits.completedAll
    (rounds : Nat) (fits : Fits graph rounds [] state) :
    ∃ next, completeAll rounds state = .ok ((), next) ∧
      Fits graph 0 [] next ∧ Keeps state.forms next.forms := by
  induction rounds generalizing state with
  | zero => exact ⟨state, rfl, fits, .refl _⟩
  | succ rounds ih =>
    cases waiting : state.waiting with
    | nil =>
      have noneBelow : ∀ other ∈ state.waiting, other < 0 := by
        rw [waiting]
        exact List.forall_mem_nil _
      exact
        ⟨state, completeAll_nil rounds waiting,
          { fits with below := noneBelow }, .refl _⟩
    | cons first rest =>
      have atMost : ∀ number ∈ state.waiting.reverse, number ≤ rounds :=
        fun number inside =>
          Nat.le_of_lt_succ (fits.below number (List.mem_reverse.1 inside))
      rcases (fits.emptied rounds).completedEach atMost with
        ⟨between, each, fitsBetween, keeps⟩
      rcases ih fitsBetween with ⟨next, run, fitsNext, further⟩
      exact
        ⟨next, (completeAll_cons waiting each).trans run, fitsNext,
          keeps.trans further⟩

/-- The forms of a node that denotes a value are complete in the end. -/
theorem exists_forms
    (denotes : Denotes graph number value) :
    ∃ forms, (⟨graph, number⟩ : RootedGraph).forms = .ok forms ∧
      IsBegun forms number ∧ AreComplete graph forms := by
  have start :
      Fits graph graph.size []
        ⟨graph, Array.replicate graph.size none, []⟩ :=
    { graph_eq := rfl
      size_eq := Array.size_replicate
      below := List.forall_mem_nil _
      waits := by rintro other (none | none) <;> cases none
      made := by
        intro other form here
        rw [Array.getElem?_replicate] at here
        split at here <;> cases here }
  rcases start.form denotes denotes.lt_size with
    ⟨form, begun, found, fits, -, there⟩
  have below : ∀ other ∈ begun.waiting, other < graph.size + 1 :=
    fun other inside => (fits.below other inside).trans (Nat.lt_succ_self _)
  rcases Fits.completedAll (graph.size + 1) { fits with below } with
    ⟨last, run, fitsLast, keeps⟩
  refine ⟨last.forms, ?_, keeps number ⟨form, there⟩, ?_⟩
  · have run :
        ((do let _ ← formOf number; completeAll (graph.size + 1) :
            Make Unit).run
          ⟨graph, Array.replicate graph.size none, []⟩) =
          .ok ((), last) :=
      (bind_of_ok found).trans run
    rw [RootedGraph.forms]
    simp only [run]
    rfl
  · intro other form here
    rcases fitsLast.made other form here with (none | inside) | isComplete
    · cases none
    · exact absurd (fitsLast.below other inside) (Nat.not_lt_zero _)
    · exact isComplete

end Make

end ApiAtlas.Yaml
