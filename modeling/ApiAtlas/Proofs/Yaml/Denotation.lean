import ApiAtlas.Proofs.Yaml.Composition
import ApiAtlas.Proofs.Yaml.Word
import ApiAtlas.Yaml.Form

/-!
# Values of numbered nodes

When the nodes of a tree are numbered, every node comes behind its parts and
stays what it is while others are added.  So a number denotes a value for good:
the value that is written where its node comes from.
-/

namespace ApiAtlas.Yaml

open Json (Written WrittenItems WrittenMembers)

/-! ## Denotations -/

mutual

/-- What value a node stands for; the parts of a node come before it. -/
inductive Denotes (graph : Graph) : Nat → Datum → Prop
  | scalar {number : Nat} {tag : Tag} {text : String} {value : Scalar}
      (here : graph[number]? = some ⟨tag, .scalar text⟩)
      (isPlain : Form.begun? tag = none)
      (same : scalarValue tag text = .ok value) :
      Denotes graph number (.scalar value)
  | list {number : Nat} {items : List Nat} {values : List Datum}
      (here : graph[number]? = some ⟨.sequence, .sequence items⟩)
      (parts : DenotesItems graph number items values) :
      Denotes graph number (.list values)
  | object {number : Nat} {pairs : List (Nat × Nat)} {fields : Fields}
      (here : graph[number]? = some ⟨.mapping, .mapping pairs⟩)
      (parts : DenotesPairs graph number pairs [] fields) :
      Denotes graph number (.object fields)

/-- What values nodes in front of a bound stand for. -/
inductive DenotesItems (graph : Graph) : Nat → List Nat → List Datum → Prop
  | nil (bound : Nat) : DenotesItems graph bound [] []
  | cons {bound item : Nat} {rest : List Nat} {value : Datum}
      {values : List Datum} (below : item < bound)
      (first : Denotes graph item value)
      (others : DenotesItems graph bound rest values) :
      DenotesItems graph bound (item :: rest) (value :: values)

/-- What fields pairs in front of a bound stand for, put after earlier ones. -/
inductive DenotesPairs (graph : Graph) :
    Nat → List (Nat × Nat) → Fields → Fields → Prop
  | nil (bound : Nat) (earlier : Fields) :
      DenotesPairs graph bound [] earlier earlier
  | cons {bound key part : Nat} {name : String} {rest : List (Nat × Nat)}
      {value : Datum} {earlier fields : Fields}
      (isName : graph[key]? = some ⟨.text, .scalar name⟩)
      (keyBelow : key < bound) (below : part < bound)
      (first : Denotes graph part value)
      (others :
        DenotesPairs graph bound rest (Named.put name value earlier) fields) :
      DenotesPairs graph bound ((key, part) :: rest) earlier fields

end

theorem lt_size_of_here
    {graph : Graph} {number : Nat} {vertex : Vertex}
    (here : graph[number]? = some vertex) : number < graph.size :=
  (Array.getElem?_eq_some_iff.1 here).1

theorem Denotes.lt_size
    {graph : Graph} {number : Nat} {value : Datum}
    (denotes : Denotes graph number value) : number < graph.size := by
  cases denotes with
  | scalar here isPlain same => exact lt_size_of_here here
  | list here parts => exact lt_size_of_here here
  | object here parts => exact lt_size_of_here here

/-! ## Graphs that grow -/

/-- Whether the nodes of a graph are those of another, with more behind. -/
def Extends (before after : Graph) : Prop :=
  ∀ (number : Nat) (vertex : Vertex), before[number]? = some vertex →
    after[number]? = some vertex

theorem Extends.refl (graph : Graph) : Extends graph graph :=
  fun _ _ here => here

theorem Extends.trans
    {before between after : Graph} (first : Extends before between)
    (second : Extends between after) : Extends before after :=
  fun number vertex here => second number vertex (first number vertex here)

theorem extends_push (graph : Graph) (vertex : Vertex) :
    Extends graph (graph.push vertex) := by
  intro number found here
  rw [Array.getElem?_push, if_neg (lt_size_of_here here).ne, here]

mutual

theorem Denotes.extend
    {before after : Graph} (grows : Extends before after) {number : Nat}
    {value : Datum} :
    Denotes before number value → Denotes after number value
  | .scalar here isPlain same =>
    .scalar (grows number _ here) isPlain same
  | .list here parts => .list (grows number _ here) (parts.extend grows)
  | .object here parts => .object (grows number _ here) (parts.extend grows)

theorem DenotesItems.extend
    {before after : Graph} (grows : Extends before after) {bound : Nat}
    {items : List Nat} {values : List Datum} :
    DenotesItems before bound items values →
      DenotesItems after bound items values
  | .nil _ => .nil _
  | .cons below first others =>
    .cons below (first.extend grows) (others.extend grows)

theorem DenotesPairs.extend
    {before after : Graph} (grows : Extends before after) {bound : Nat}
    {pairs : List (Nat × Nat)} {earlier fields : Fields} :
    DenotesPairs before bound pairs earlier fields →
      DenotesPairs after bound pairs earlier fields
  | .nil _ _ => .nil _ _
  | .cons isName keyBelow below first others =>
    .cons (grows _ _ isName) keyBelow below (first.extend grows)
      (others.extend grows)

end

/-! ## Numbered trees -/

/-- The tag of a plain scalar is none of a container. -/
theorem begun?_resolve (text : String) : Form.begun? (resolve text) = none := by
  rw [resolve, lineTag]
  repeat' split
  all_goals rfl

section Numbering

open Yaml.Numbering

/-- A node that is added is the last one. -/
theorem getElem?_add (tag : Tag) (content : Content) (state : Numbering) :
    (add tag content state).2.graph[(add tag content state).1]? =
      some ⟨tag, content⟩ :=
  Array.getElem?_push_size

theorem extends_add (tag : Tag) (content : Content) (state : Numbering) :
    Extends state.graph (add tag content state).2.graph :=
  extends_push state.graph ⟨tag, content⟩

mutual

/-- The number of a tree denotes the value that is written. -/
theorem denotes_written :
    (written : Written) → written.IsShared → (state : Numbering) →
      Extends state.graph (addNode written.node state).2.graph ∧
        Denotes (addNode written.node state).2.graph
          (addNode written.node state).1 written.value
  | .word word, isShared, state =>
    ⟨extends_add _ _ state,
      .scalar (getElem?_add _ _ state) (begun?_resolve _)
        (scalarValue_word isShared)⟩
  | .text pieces, _, state =>
    ⟨extends_add _ _ state, .scalar (getElem?_add _ _ state) rfl rfl⟩
  | .noItems _, _, state =>
    ⟨extends_add _ _ state, .list (getElem?_add _ _ state) (.nil _)⟩
  | .list _ items, isShared, state => by
    rcases denotes_items items isShared state with ⟨grows, parts⟩
    have last :=
      extends_add .sequence (.sequence (addItems items.nodes state).1)
        (addItems items.nodes state).2
    exact ⟨grows.trans last, .list (getElem?_add _ _ _) (parts.extend last)⟩
  | .noMembers _, _, state =>
    ⟨extends_add _ _ state, .object (getElem?_add _ _ state) (.nil _ _)⟩
  | .object _ members, isShared, state => by
    rcases denotes_members members [] isShared state with ⟨grows, parts⟩
    have last :=
      extends_add .mapping (.mapping (addPairs members.pairs state).1)
        (addPairs members.pairs state).2
    exact ⟨grows.trans last, .object (getElem?_add _ _ _) (parts.extend last)⟩

theorem denotes_items :
    (items : WrittenItems) → items.IsShared → (state : Numbering) →
      Extends state.graph (addItems items.nodes state).2.graph ∧
        DenotesItems (addItems items.nodes state).2.graph
          (addItems items.nodes state).2.graph.size
          (addItems items.nodes state).1 items.values
  | .last item _, isShared, state => by
    rcases denotes_written item isShared state with ⟨grows, first⟩
    exact ⟨grows, .cons first.lt_size first (.nil _)⟩
  | .next item _ _ rest, ⟨isShared, areShared⟩, state => by
    rcases denotes_written item isShared state with ⟨grows, first⟩
    rcases denotes_items rest areShared (addNode item.node state).2 with
      ⟨further, others⟩
    have moved := first.extend further
    exact ⟨grows.trans further, .cons moved.lt_size moved others⟩

theorem denotes_members :
    (members : WrittenMembers) → (earlier : Fields) → members.IsShared →
      (state : Numbering) →
      Extends state.graph (addPairs members.pairs state).2.graph ∧
        DenotesPairs (addPairs members.pairs state).2.graph
          (addPairs members.pairs state).2.graph.size
          (addPairs members.pairs state).1 earlier
          (members.fieldsAfter earlier)
  | .last label value _, earlier, ⟨_, isShared⟩, state => by
    let named := add .text (.scalar label.name.text) state
    have begins : Extends state.graph named.2.graph := extends_add _ _ state
    rcases denotes_written value isShared named.2 with ⟨grows, first⟩
    have name := grows _ _ (getElem?_add .text (.scalar label.name.text) state)
    exact
      ⟨begins.trans grows,
        .cons name (lt_size_of_here name) first.lt_size first (.nil _ _)⟩
  | .next label value _ _ rest, earlier, ⟨_, isShared, areShared⟩, state => by
    let named := add .text (.scalar label.name.text) state
    have begins : Extends state.graph named.2.graph := extends_add _ _ state
    rcases denotes_written value isShared named.2 with ⟨grows, first⟩
    rcases denotes_members rest (Named.put label.name.text value.value earlier)
        areShared (addNode value.node named.2).2 with
      ⟨further, others⟩
    have name :=
      further _ _
        (grows _ _ (getElem?_add .text (.scalar label.name.text) state))
    have moved := first.extend further
    exact
      ⟨(begins.trans grows).trans further,
        .cons name (lt_size_of_here name) moved.lt_size moved others⟩

end

end Numbering

end ApiAtlas.Yaml
