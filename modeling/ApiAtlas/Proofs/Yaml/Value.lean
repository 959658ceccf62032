import ApiAtlas.Proofs.Yaml.Forms

/-!
# Values of trees

The values of complete forms follow from each other in the order of their
numbers.  So a tree whose words and texts mean the same in both notations has
the value that is written, and a text that writes it is read as this value, or
refused.
-/

namespace ApiAtlas.Yaml

open Json (Written WrittenMembers)

/-! ## Values in order -/

section Push

variable {α β : Type} (step : Array β → α → β)

/-- What is there stays while more is put behind it. -/
theorem getElem?_foldl_push
    (items : List α) (values : Array β) {number : Nat}
    (inside : number < values.size) :
    (items.foldl (fun values item => values.push (step values item)) values)[
        number]? =
      values[number]? := by
  induction items generalizing values with
  | nil => rfl
  | cons item rest ih =>
    rw [List.foldl_cons, ih _ (Array.size_push _ ▸ inside.trans (Nat.lt_succ_self _)),
      Array.getElem?_push, if_neg inside.ne]

/-- Every value comes from the values in front of it. -/
theorem exists_before_of_foldl_push
    {items : List α} {number : Nat} {item : α}
    (here : items[number]? = some item) (values : Array β) :
    ∃ before : Array β,
      (items.foldl (fun values item => values.push (step values item))
          values)[values.size + number]? =
        some (step before item) ∧
      ∀ other < values.size + number,
        (items.foldl (fun values item => values.push (step values item))
            values)[other]? =
          before[other]? := by
  induction items generalizing values number with
  | nil => cases here
  | cons first rest ih =>
    have size :
        (values.push (step values first)).size = values.size + 1 :=
      Array.size_push _
    cases number with
    | zero =>
      obtain rfl : first = item := Option.some.inj here
      rw [Nat.add_zero]
      refine ⟨values, ?_, fun other inside => ?_⟩
      · rw [List.foldl_cons,
          getElem?_foldl_push step rest _ (size ▸ Nat.lt_succ_self _),
          Array.getElem?_push_size]
      · rw [List.foldl_cons,
          getElem?_foldl_push step rest _ (size ▸ inside.trans (Nat.lt_succ_self _)),
          Array.getElem?_push, if_neg inside.ne]
    | succ number =>
      have found := ih here (values.push (step values first))
      rw [size, Nat.add_assoc, Nat.add_comm 1] at found
      exact found

end Push

/-- The value of a form depends on the values of its parts only. -/
theorem Form.value_congr
    {form : Form} {one other : Nat → Datum}
    (same : ∀ part ∈ form.parts, one part = other part) :
    form.value one = form.value other := by
  cases form with
  | scalar key => rfl
  | list items => exact congrArg Datum.list (List.map_congr_left same)
  | pairs items =>
    refine congrArg Datum.list (List.map_congr_left fun pair inside => ?_)
    have parts : ∀ part ∈ [pair.1, pair.2], one part = other part :=
      fun part isPart =>
        same part (List.mem_flatMap.2 ⟨pair, inside, isPart⟩)
    rw [parts pair.1 List.mem_cons_self,
      parts pair.2 (List.mem_cons_of_mem _ List.mem_cons_self)]
  | set keys => rfl
  | map members =>
    refine congrArg Datum.map (List.map_congr_left fun member inside => ?_)
    rw [same member.2 (List.mem_map_of_mem inside)]

/-- The value of a node among the values of all nodes. -/
def valueAt (values : Array Datum) (number : Nat) : Datum :=
  values[number]?.getD .endless

/-- The value of a form among the values of those before it. -/
def formValue (values : Array Datum) (form : Option Form) : Datum :=
  (form.map (Form.value (valueAt values))).getD .endless

theorem values_of_isOrdered
    {forms : Forms} (isOrdered : forms.isOrdered = true) :
    forms.values =
      forms.toList.foldl
        (fun values form => values.push (formValue values form)) #[] := by
  rw [Forms.values, if_pos isOrdered, Forms.valuesAfter, Forms.valuesAfter,
    Forms.valuesFrom, ← Array.foldl_toList]
  simp only [formValue, Array.getElem?_empty, Option.or_none]
  rfl

/-- A form whose parts come before it has the value that they give it. -/
theorem valueAt_values
    {forms : Forms} {number : Nat} {form : Form}
    (isOrdered : forms.isOrdered = true)
    (here : forms[number]? = some (some form))
    (below : ∀ part ∈ form.parts, part < number) :
    valueAt forms.values number = form.value (valueAt forms.values) := by
  rw [← Array.getElem?_toList] at here
  rcases exists_before_of_foldl_push formValue here #[] with
    ⟨before, last, same⟩
  rw [← values_of_isOrdered isOrdered, Array.size_empty, Nat.zero_add]
    at last same
  rw [valueAt, last]
  refine Form.value_congr fun part inside => ?_
  rw [valueAt, valueAt, same part (below part inside)]

/-! ## Complete forms -/

/-- Names are the same key if they are equal. -/
theorem same_of_names
    {one other : Key} {a b : String} (isName : one.value = .str a)
    (isOther : other.value = .str b) : one.same other = (a == b) := by
  rw [Key.same, isName, isOther]
  change (one == other || a == b) = (a == b)
  by_cases same : one = other
  · rw [same, isOther] at isName
    cases isName
    rw [beq_self_eq_true, Bool.or_true]
  · rw [beq_eq_false_iff_ne.2 same, Bool.false_or]

/-- The entries that members stand for. -/
def entriesAt (values : Array Datum) (members : Members) : Entries :=
  members.map fun member => (member.1.value, valueAt values member.2)

theorem entriesAt_put
    {values : Array Datum} {key : Key} {name : String}
    (isName : key.value = .str name) (part : Nat) {members : Members}
    {fields : Fields} (same : entriesAt values members = fields.toEntries) :
    entriesAt values (Members.put key part members) =
      Fields.toEntries (Named.put name (valueAt values part) fields) := by
  induction members generalizing fields with
  | nil =>
    cases fields with
    | nil => rw [Members.put, entriesAt, List.map_singleton, isName]; rfl
    | cons field others => cases same
  | cons member rest ih =>
    cases fields with
    | nil => cases same
    | cons field others =>
      rw [entriesAt, List.map_cons, Fields.toEntries, List.map_cons,
        List.cons_eq_cons, Prod.mk.injEq] at same
      rcases same with ⟨⟨label, value⟩, tail⟩
      rw [Members.put, Named.put, same_of_names label isName]
      split
      · next isSame =>
        rw [entriesAt, List.map_cons, tail, label, beq_iff_eq.1 isSame]
        rfl
      · have further :
            entriesAt values (Members.put key part rest) =
              Fields.toEntries (Named.put name (valueAt values part) others) :=
          ih tail
        rw [entriesAt] at further
        rw [entriesAt, List.map_cons, further, label, value]
        rfl

section Complete

variable {graph : Graph} {forms : Forms}

theorem AreComplete.isOrdered
    (complete : AreComplete graph forms) : forms.isOrdered = true := by
  rw [Forms.isOrdered, Array.all_eq_true]
  intro number inside
  rw [Array.getElem_zipIdx, Nat.zero_add]
  rw [Array.size_zipIdx] at inside
  cases found : forms[number] with
  | none => rfl
  | some form =>
    have here : forms[number]? = some (some form) :=
      Array.getElem?_eq_some_iff.2 ⟨inside, found⟩
    exact
      List.all_eq_true.2 fun part isPart =>
        decide_eq_true ((complete number form here).part_lt part isPart)

mutual

/-- A node whose form is complete has the value that it denotes. -/
theorem valueAt_of_denotes
    (complete : AreComplete graph forms) {number : Nat} {value : Datum} :
    Denotes graph number value → IsBegun forms number →
      valueAt forms.values number = value
  | .scalar here isPlain same, ⟨form, there⟩ => by
    have isComplete := complete number form there
    rw [valueAt_values complete.isOrdered there isComplete.part_lt]
    cases isComplete with
    | scalar _ isKey =>
      cases isKey.symm.trans (key_of_here here same)
      rfl
    | list other below begun => cases other.symm.trans here
    | map other below begun => cases other.symm.trans here
  | .list here parts, ⟨form, there⟩ => by
    have isComplete := complete number form there
    rw [valueAt_values complete.isOrdered there isComplete.part_lt]
    cases isComplete with
    | scalar other isKey => cases other.symm.trans here
    | list other below begun =>
      cases other.symm.trans here
      exact congrArg Datum.list (map_of_denotesItems complete parts begun)
    | map other below begun => cases other.symm.trans here
  | .object here parts, ⟨form, there⟩ => by
    have isComplete := complete number form there
    rw [valueAt_values complete.isOrdered there isComplete.part_lt]
    cases isComplete with
    | scalar other isKey => cases other.symm.trans here
    | list other below begun => cases other.symm.trans here
    | map other below begun =>
      cases other.symm.trans here
      exact
        congrArg Datum.map
          (entriesAt_of_denotesPairs complete parts begun rfl)

theorem map_of_denotesItems
    (complete : AreComplete graph forms) {bound : Nat} {items : List Nat}
    {values : List Datum} :
    DenotesItems graph bound items values →
      (∀ item ∈ items, IsBegun forms item) →
      items.map (valueAt forms.values) = values
  | .nil _, _ => rfl
  | .cons _ first others, begun => by
    rw [List.forall_mem_cons] at begun
    rw [List.map_cons, valueAt_of_denotes complete first begun.1,
      map_of_denotesItems complete others begun.2]

theorem entriesAt_of_denotesPairs
    (complete : AreComplete graph forms) {bound : Nat}
    {pairs : List (Nat × Nat)} {earlier fields : Fields} {members : Members} :
    DenotesPairs graph bound pairs earlier fields →
      (∀ pair ∈ pairs, IsBegun forms pair.2) →
      entriesAt forms.values members = earlier.toEntries →
      entriesAt forms.values (graph.membersAfter members pairs) =
        fields.toEntries
  | .nil _ _, _, same => same
  | .cons isName _ _ first others, begun, same => by
    rw [List.forall_mem_cons] at begun
    rw [membersAfter_cons isName]
    refine entriesAt_of_denotesPairs complete others begun.2 ?_
    rw [entriesAt_put rfl _ same, valueAt_of_denotes complete first begun.1]

end

end Complete

/-- The value of a tree is the one that is written. -/
theorem value_node
    {written : Written} (isShared : written.IsShared) :
    written.node.value = .ok written.value := by
  have denotes := (denotes_written written isShared ⟨#[], []⟩).2
  rcases exists_forms denotes with ⟨forms, made, isBegun, complete⟩
  have rooted : written.node.toGraph.forms = .ok forms := made
  rw [Node.value]
  simp only [rooted]
  exact congrArg Except.ok (valueAt_of_denotes complete denotes isBegun)

/--
A text that writes an object in words and texts that mean the same in both
notations is read as the value of the object, or refused.
-/
theorem read_object
    {inside : Json.Gap} {members : WrittenMembers} {text : String}
    (isShared : members.IsShared)
    (writes : (Written.object inside members).Writes text.toList) :
    read text = .error .malformed ∨
      read text = .ok (Written.object inside members).value := by
  rw [read]
  split
  · exact Or.inl rfl
  · rcases rootOf_object isShared writes with refused | found
    · rw [refused]
      exact Or.inl rfl
    · rw [found]
      exact Or.inr (value_node isShared)

end ApiAtlas.Yaml
